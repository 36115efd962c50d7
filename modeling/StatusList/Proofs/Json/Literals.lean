import StatusList.Json.Value
import StatusList.Proofs.Text.Utf8

/-!
# String literals in a text

Between the marks of a literal there are bytes that mean nothing and escapes (`Body`). Passing
over a literal ends where it ends (`Body.pass_append`), and what follows it makes no difference
to its text (`Body.read_append`), although the first half of a surrogate pair looks at what comes
next: that is still inside the literal, or its mark.

A string is written as its literal (`spells_escaped`) and read from it (`read_escaped`). This
goes character by character: a character is either written as it is, and then none of its bytes
means anything in a literal, or written with a backslash.
-/

namespace StatusList.Json.Literal

/-! ## Bytes that mean nothing -/

/-- The byte stands for itself in a literal. -/
def Plain (b : UInt8) : Prop := b ≠ backslash ∧ b ≠ mark ∧ ¬ b < 32

theorem readOnto_plain {b : UInt8} (h : Plain b) (done rest : List UInt8) :
    readOnto done (b :: rest) = readOnto (b :: done) rest := by
  have hslash : ¬ b = 92 := h.1
  rw [readOnto, if_neg h.2.1, if_neg h.2.2]
  all_goals simp [hslash]

theorem ne_of_escaped? {e : UInt8} (h : (escaped? e).isSome = true) : e ≠ 117 := by
  rintro rfl
  revert h
  decide

theorem readOnto_letter {e v : UInt8} (he : escaped? e = some v) (done rest : List UInt8) :
    readOnto done (backslash :: e :: rest) = readOnto (v :: done) rest := by
  have hne : e ≠ 117 := ne_of_escaped? (by rw [he]; rfl)
  refine (readOnto.eq_5 done e rest (fun _ _ _ _ _ h _ => hne h) hne).trans ?_
  rw [he]

theorem readOnto_mark (done rest : List UInt8) :
    readOnto done (mark :: rest) = .ok (done.reverse, rest) := by
  rw [readOnto, if_pos rfl]
  all_goals simp [mark]

/-- Plain bytes are read as they are. -/
theorem readOnto_append {bytes : List UInt8} (h : ∀ b ∈ bytes, Plain b) (done rest : List UInt8) :
    readOnto done (bytes ++ rest) = readOnto (bytes.reverse ++ done) rest := by
  induction bytes generalizing done with
  | nil => rfl
  | cons b bytes ih =>
    obtain ⟨hb, hbytes⟩ := List.forall_mem_cons.1 h
    rw [List.cons_append, readOnto_plain hb, ih hbytes, List.reverse_cons, List.append_assoc,
      List.singleton_append]

/-! ## Literals in a text -/

/-- What stands between the marks of a literal: bytes that mean nothing, and escapes. -/
inductive Body : List UInt8 → Prop where
  | nil : Body []
  | plain {b : UInt8} {rest : List UInt8} (hb : Plain b) (h : Body rest) : Body (b :: rest)
  | letter {e : UInt8} {rest : List UInt8} (he : (escaped? e).isSome = true) (h : Body rest) :
    Body (backslash :: e :: rest)
  | number {a b c d : UInt8} {rest : List UInt8} (hn : (hex? a b c d).isSome = true)
    (h : Body rest) : Body (backslash :: 117 :: a :: b :: c :: d :: rest)

/-- Bytes that mean nothing may stand before what stands in a literal. -/
theorem Body.plains {bytes rest : List UInt8} (hbytes : ∀ b ∈ bytes, Plain b) (h : Body rest) :
    Body (bytes ++ rest) := by
  induction bytes with
  | nil => exact h
  | cons b bytes ih =>
    obtain ⟨hb, hbytes⟩ := List.forall_mem_cons.1 hbytes
    exact .plain hb (ih hbytes)

/-- Passing over a literal ends at the first mark that is not escaped. -/
theorem Body.pass_append {body : List UInt8} (h : Body body) (rest : List UInt8) :
    pass (body ++ mark :: rest) = .ok rest := by
  induction h with
  | nil =>
    rw [List.nil_append, pass, if_pos rfl]
    all_goals simp [mark]
  | plain hb _ ih =>
    have hslash : ¬ _ = (92 : UInt8) := hb.1
    rw [List.cons_append, pass, if_neg hb.2.1, if_neg hb.2.2, ih]
    all_goals simp [hslash]
  | @letter e body he _ ih =>
    have hne := ne_of_escaped? he
    refine (pass.eq_5 e (body ++ mark :: rest) (fun _ _ _ _ _ h _ => hne h) hne).trans ?_
    rw [if_pos he, ih]
  | @number a b c d body hn _ ih =>
    obtain ⟨n, hn⟩ := Option.isSome_iff_exists.1 hn
    refine (pass.eq_3 a b c d (body ++ mark :: rest)).trans ?_
    rw [hn, ih]

/-- The first half of a pair is alone where no number follows it. -/
theorem readOnto_half {a b c d e : UInt8} {n : Nat} (hn : hex? a b c d = some n)
    (hsecond : isSecondHalf n = false) (hfirst : isFirstHalf n = true) (rest : List UInt8)
    (he : e = backslash → ∃ e' rest', rest = e' :: rest' ∧ e' ≠ 117) (done : List UInt8) :
    readOnto done (backslash :: 117 :: a :: b :: c :: d :: e :: rest) = .error .halfPair := by
  refine (readOnto.eq_3 done a b c d (e :: rest)).trans ?_
  simp only [hn, hsecond, hfirst, Bool.not_true, Bool.false_eq_true, if_false]
  split <;> grind [backslash]

/-- The text of a literal is read on after its first unit, or there is a fault, whatever
    follows the literal. -/
theorem Body.readOnto_cases {body : List UInt8} (h : Body body) (done : List UInt8) :
    body = [] ∨
    (∃ body' done', Body body' ∧ body'.length < body.length ∧ ∀ rest,
      readOnto done (body ++ mark :: rest) = readOnto done' (body' ++ mark :: rest)) ∨
    ∃ fault, ∀ rest, readOnto done (body ++ mark :: rest) = .error fault := by
  cases h with
  | nil => exact .inl rfl
  | @plain b body hb hbody =>
    exact .inr (.inl ⟨body, b :: done, hbody, by simp, fun _ => readOnto_plain hb done _⟩)
  | @letter e body he hbody =>
    obtain ⟨v, he⟩ := Option.isSome_iff_exists.1 he
    exact .inr (.inl ⟨body, v :: done, hbody, by simp,
      fun _ => readOnto_letter he done _⟩)
  | @number a b c d body hn hbody =>
    obtain ⟨n, hn⟩ := Option.isSome_iff_exists.1 hn
    have hnumber := fun rest => readOnto.eq_3 done a b c d (body ++ mark :: rest)
    simp only [hn] at hnumber
    cases hsecond : isSecondHalf n with
    | true =>
      refine .inr (.inr ⟨.loneSurrogate, fun rest => (hnumber rest).trans ?_⟩)
      rw [if_pos hsecond]
    | false =>
      cases hfirst : isFirstHalf n with
      | false =>
        refine .inr (.inl ⟨body, (utf8 n).reverse ++ done, hbody, by simp; omega,
          fun rest => (hnumber rest).trans ?_⟩)
        simp [hsecond, hfirst]
      | true =>
        -- What follows the first half of a pair is another number, or it is no second half.
        have halone := fun e rest he => readOnto_half (e := e) hn hsecond hfirst rest he
        cases hbody with
        | nil =>
          exact .inr (.inr ⟨.halfPair, fun rest => halone mark rest (fun h => by cases h) done⟩)
        | @plain e body he =>
          exact .inr (.inr ⟨.halfPair, fun rest => halone e _ (fun h => absurd h he.1) done⟩)
        | @letter e body he =>
          exact .inr (.inr ⟨.halfPair, fun rest =>
            halone backslash (e :: (body ++ mark :: rest))
              (fun _ => ⟨e, _, rfl, ne_of_escaped? he⟩) done⟩)
        | @number a' b' c' d' body hm hbody =>
          obtain ⟨m, hm⟩ := Option.isSome_iff_exists.1 hm
          cases hpair : isSecondHalf m with
          | true =>
            refine .inr (.inl ⟨body,
              (utf8 (0x10000 + (n - 0xD800) * 0x400 + (m - 0xDC00))).reverse ++ done, hbody,
              by simp; omega, fun rest => (hnumber rest).trans ?_⟩)
            simp [hsecond, hfirst, hm, hpair, backslash]
          | false =>
            refine .inr (.inr ⟨.loneSurrogate, fun rest => (hnumber rest).trans ?_⟩)
            simp [hsecond, hfirst, hm, hpair, backslash]

/-- What follows a literal makes no difference to its text. -/
theorem Body.readOnto_append {body : List UInt8} (h : Body body) (done rest : List UInt8) :
    (readOnto done (body ++ mark :: rest)).map Prod.fst =
      (readOnto done (body ++ [mark])).map Prod.fst := by
  induction hlength : body.length using Nat.strong_induction_on generalizing body done with
  | _ length ih =>
    obtain rfl | ⟨body', done', hbody', hless, hread⟩ | ⟨fault, hread⟩ := h.readOnto_cases done
    · rw [List.nil_append, List.nil_append, readOnto_mark, readOnto_mark]
      rfl
    · rw [hread, hread]
      exact ih _ (hlength ▸ hless) hbody' done' rfl
    · rw [hread, hread]

/-- Texts are read alike if the same bytes are read from them. -/
theorem read_eq_of_map_eq {text text' : List UInt8}
    (h : (readOnto [] text).map Prod.fst = (readOnto [] text').map Prod.fst) :
    read text = read text' := by
  rw [read, read]
  generalize readOnto [] text = result at h ⊢
  generalize readOnto [] text' = result' at h ⊢
  cases result with
  | error fault =>
    cases result' with
    | error fault' =>
      cases h
      rfl
    | ok r' => cases h
  | ok r =>
    cases result' with
    | error fault' => cases h
    | ok r' =>
      obtain ⟨bytes, rest⟩ := r
      obtain ⟨bytes', rest'⟩ := r'
      cases h
      rfl

theorem Body.read_append {body : List UInt8} (h : Body body) (rest : List UInt8) :
    read (body ++ mark :: rest) = read (body ++ [mark]) :=
  read_eq_of_map_eq (h.readOnto_append [] rest)

/-- A literal in a text, with its marks. -/
inductive Spells : Literal → List UInt8 → Prop where
  | mk {body : List UInt8} (h : Body body) :
    Spells (read (body ++ [mark])) (mark :: (body ++ [mark]))

/-! ## Characters -/

/-- How a character is written: with a backslash and a letter, with its number, or as it
    is. -/
theorem escape_cases (c : Char) :
    (∃ letter, escaped? letter = some c.toNat.toUInt8 ∧ c.toNat < 128 ∧ letter ≠ 117 ∧
      Utf8.encode (escape c) = [backslash, letter]) ∨
    (c.toNat < 32 ∧ escape c =
      ['\\', 'u', '0', '0', hexDigit (c.toNat / 16), hexDigit (c.toNat % 16)]) ∨
    (escape c = [c] ∧ ∀ b ∈ String.utf8EncodeChar c, Plain b) := by
  unfold escape
  split
  · exact .inl ⟨34, by decide⟩
  · exact .inl ⟨92, by decide⟩
  · exact .inl ⟨98, by decide⟩
  · exact .inl ⟨102, by decide⟩
  · exact .inl ⟨110, by decide⟩
  · exact .inl ⟨114, by decide⟩
  · exact .inl ⟨116, by decide⟩
  · next hmark hslash _ _ _ _ _ =>
    split
    · next hcontrol => exact .inr (.inl ⟨hcontrol, rfl⟩)
    · next hcontrol =>
      refine .inr (.inr ⟨rfl, fun b hb => ?_⟩)
      rcases Nat.lt_or_ge c.toNat 128 with hascii | hwide
      · -- The only byte is the character, which is neither the mark nor a backslash.
        rw [Utf8.utf8EncodeChar_of_lt hascii, List.mem_singleton] at hb
        subst hb
        have hvalue : c.toNat.toUInt8.toNat = c.toNat := Nat.mod_eq_of_lt (by omega)
        have hne : ∀ d : Char, c ≠ d → c.toNat ≠ d.toNat := fun d h heq => h (Char.toNat_inj.1 heq)
        refine ⟨fun h => hne '\\' hslash ?_, fun h => hne '"' hmark ?_, fun h => hcontrol ?_⟩
        · rw [← hvalue, h]
          rfl
        · rw [← hvalue, h]
          rfl
        · rwa [UInt8.lt_iff_toNat_lt, hvalue] at h
      · have hbyte := Utf8.le_of_mem_utf8EncodeChar hwide hb
        refine ⟨?_, ?_, ?_⟩
        · rintro rfl
          exact absurd hbyte (by decide)
        · rintro rfl
          exact absurd hbyte (by decide)
        · intro h
          exact absurd (UInt8.le_trans hbyte (UInt8.le_of_lt h)) (by decide)

/-- The number of a control character as it is written. -/
theorem encode_control {n : Nat} (h : n < 32) :
    Utf8.encode ['\\', 'u', '0', '0', hexDigit (n / 16), hexDigit (n % 16)] =
        [92, 117, 48, 48, (hexDigit (n / 16)).toNat.toUInt8, (hexDigit (n % 16)).toNat.toUInt8] ∧
      hex? 48 48 (hexDigit (n / 16)).toNat.toUInt8 (hexDigit (n % 16)).toNat.toUInt8 = some n ∧
      isSecondHalf n = false ∧ isFirstHalf n = false := by
  decide +revert

/-- A character is read as it was written. -/
theorem readOnto_escape (c : Char) (done rest : List UInt8) :
    readOnto done (Utf8.encode (escape c) ++ rest) =
      readOnto ((String.utf8EncodeChar c).reverse ++ done) rest := by
  rcases escape_cases c with ⟨letter, hletter, hascii, hne, hcode⟩ | ⟨hcontrol, hcode⟩ |
    ⟨hcode, hplain⟩
  · rw [hcode, Utf8.utf8EncodeChar_of_lt hascii]
    exact readOnto_letter hletter done rest
  · obtain ⟨hbytes, hhex, hsecond, hfirst⟩ := encode_control hcontrol
    rw [hcode, hbytes]
    refine (readOnto.eq_3 done 48 48 _ _ rest).trans ?_
    simp only [hhex, hsecond, hfirst, utf8, Char.ofNat_toNat]
    rfl
  · rw [hcode, Utf8.encode_cons, Utf8.encode_nil, List.append_nil]
    exact readOnto_append hplain done rest

/-- A character may stand in a literal as it is written. -/
theorem Body.escape (c : Char) {rest : List UInt8} (h : Body rest) :
    Body (Utf8.encode (Json.escape c) ++ rest) := by
  rcases escape_cases c with ⟨letter, hletter, -, -, hcode⟩ | ⟨hcontrol, hcode⟩ | ⟨hcode, hplain⟩
  · rw [hcode]
    exact .letter (by rw [hletter]; rfl) h
  · obtain ⟨hbytes, hhex, -⟩ := encode_control hcontrol
    rw [hcode, hbytes]
    exact .number (by rw [hhex]; rfl) h
  · rw [hcode, Utf8.encode_cons, Utf8.encode_nil, List.append_nil]
    exact .plains hplain h

/-! ## Strings -/

theorem readOnto_escaped (cs : List Char) (done rest : List UInt8) :
    readOnto done (Utf8.encode (cs.flatMap escape) ++ mark :: rest) =
      .ok (done.reverse ++ Utf8.encode cs, rest) := by
  induction cs generalizing done with
  | nil =>
    rw [List.flatMap_nil, Utf8.encode_nil, List.nil_append, List.append_nil, readOnto_mark]
  | cons c cs ih =>
    rw [List.flatMap_cons, Utf8.encode_append, List.append_assoc, readOnto_escape, ih,
      List.reverse_append, List.reverse_reverse, List.append_assoc, Utf8.encode_cons]

/-- A string is read from its literal as it was written. -/
theorem read_escaped (s : String) (rest : List UInt8) :
    read (Utf8.encode (s.toList.flatMap escape) ++ mark :: rest) = .ok s := by
  have hread := readOnto_escaped s.toList [] rest
  rw [List.reverse_nil, List.nil_append] at hread
  simp only [read, hread, bind, Except.bind, Utf8.decode_encode, String.ofList_toList]
  rfl

theorem body_escaped (cs : List Char) : Body (Utf8.encode (cs.flatMap escape)) := by
  induction cs with
  | nil => exact .nil
  | cons c cs ih =>
    rw [List.flatMap_cons, Utf8.encode_append]
    exact .escape c ih

/-- A string is written as its literal. -/
theorem spells_escaped (s : String) :
    Spells (.ok s) (Utf8.encode ('"' :: s.toList.flatMap escape ++ ['"'])) := by
  have hmark : String.utf8EncodeChar '"' = [mark] := by decide
  have hspells := Spells.mk (body_escaped s.toList)
  rw [read_escaped] at hspells
  rwa [List.cons_append, Utf8.encode_cons, Utf8.encode_append, Utf8.encode_cons, Utf8.encode_nil,
    hmark]

end StatusList.Json.Literal
