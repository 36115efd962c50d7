import Mathlib
import StatusList.Text.Utf8

/-!
# UTF-8 by characters

The UTF-8 of a text, character by character (`encode`), and what a byte string reads as
that is cut off inside a character: everything before that character counts, and the fault
is the missing rest (`decode_encode_append`).

* `Spelling`: the forms that the bytes of one character take, `spelling_char`;
* `exists_encode_append_of_isPrefix`: wherever a text is cut, there are whole characters
  before the cut and the beginning of the next (`Begins`).
-/

namespace StatusList.Utf8

/-- The UTF-8 of characters. -/
def encode (cs : List Char) : List UInt8 := cs.flatMap String.utf8EncodeChar

@[simp] theorem encode_nil : encode [] = [] := rfl

theorem encode_cons (c : Char) (cs : List Char) :
    encode (c :: cs) = String.utf8EncodeChar c ++ encode cs := List.flatMap_cons

theorem encode_append (cs cs' : List Char) : encode (cs ++ cs') = encode cs ++ encode cs' :=
  List.flatMap_append

theorem toByteArray_encode (cs : List Char) : (encode cs).toByteArray = (String.ofList cs).toUTF8 :=
  rfl

theorem toList_toUTF8 (s : String) : s.toUTF8.data.toList = encode s.toList := by
  have h := toByteArray_encode s.toList
  rw [String.ofList_toList] at h
  rw [← h, List.data_toByteArray]

theorem decode_encode (cs : List Char) : decode (encode cs).toByteArray = .ok (.ofList cs) := by
  rw [toByteArray_encode, decode_toUTF8]

/-- A byte string that is read as a text is the UTF-8 of it. -/
theorem toUTF8_of_decode {bytes : ByteArray} {text : String} (h : decode bytes = .ok text) :
    text.toUTF8 = bytes := by
  rw [decode, String.fromUTF8?] at h
  split at h
  · next decoded hdecoded =>
    split at hdecoded
    · rw [← Except.ok.inj h, ← Option.some.inj hdecoded]
      rfl
    · cases hdecoded
  · cases h

/-- Nothing is replaced in a text. -/
theorem decodeLossy_encode (cs : List Char) : decodeLossy (encode cs) = .ofList cs := by
  have hvalid : String.fromUTF8? (encode cs).toByteArray = some (.ofList cs) := by
    have hdecode := decode_encode cs
    rw [decode] at hdecode
    split at hdecode
    · next h => rw [h, Except.ok.inj hdecode]
    · cases hdecode
  cases cs with
  | nil => rfl
  | cons c cs =>
    obtain ⟨b, bytes, hbytes⟩ : ∃ b bytes, encode (c :: cs) = b :: bytes := by
      rw [encode_cons]
      exact List.exists_cons_of_ne_nil (List.append_ne_nil_of_left_ne_nil
        String.utf8EncodeChar_ne_nil _)
    rw [hbytes] at hvalid ⊢
    rw [decodeLossy, List.length_cons, decodeLossy.go, hvalid]
    exact String.empty_append

/-- The first character of a text is the one that its bytes begin with. -/
theorem eq_of_encodeChar_append {c d : Char} {rest rest' : List UInt8}
    (h : String.utf8EncodeChar c ++ rest = String.utf8EncodeChar d ++ rest') : c = d := by
  have hc := ByteArray.utf8DecodeChar?_utf8EncodeChar_append (b := rest.toByteArray) (c := c)
  have hd := ByteArray.utf8DecodeChar?_utf8EncodeChar_append (b := rest'.toByteArray) (c := d)
  rw [← List.toByteArray_append, h, List.toByteArray_append, hd] at hc
  exact (Option.some.inj hc).symm

/-! ## Forms of characters -/

/-- The bytes of one character. -/
inductive Spelling : List UInt8 → Prop where
  | one {a : UInt8} (ha : a < 0x80) : Spelling [a]
  | two {a b : UInt8} (ha : 0xC2 ≤ a ∧ a ≤ 0xDF) (hb : isTail b) : Spelling [a, b]
  | three {a b c : UInt8} (ha : 0xE0 ≤ a ∧ a ≤ 0xEF) (hb : isSecondOfThree a b)
    (hc : isTail c) : Spelling [a, b, c]
  | four {a b c d : UInt8} (ha : 0xF0 ≤ a ∧ a ≤ 0xF4) (hb : isSecondOfFour a b)
    (hc : isTail c) (hd : isTail d) : Spelling [a, b, c, d]

theorem isTail_iff {b : UInt8} : isTail b ↔ 0x80 ≤ b.toNat ∧ b.toNat ≤ 0xBF := by
  simp [isTail, UInt8.le_iff_toNat_le]

theorem toNat_ofNat_of_lt {n : Nat} (h : n < 256) : (UInt8.ofNat n).toNat = n := by
  rw [UInt8.toNat_ofNat', Nat.mod_eq_of_lt h]

/-- A byte that tells the six lowest bits of a number can follow. -/
theorem isTail_ofNat (n : Nat) : isTail (UInt8.ofNat (n % 64 + 128)) := by
  rw [isTail_iff, toNat_ofNat_of_lt (by omega)]
  omega

/-- A byte lies between two others if its number lies between theirs. -/
theorem ofNat_between (low high : UInt8) {n : Nat} (h : low.toNat ≤ n ∧ n ≤ high.toNat) :
    low ≤ UInt8.ofNat n ∧ UInt8.ofNat n ≤ high := by
  have hn : n < 256 := h.2.trans_lt high.toNat_lt
  rw [UInt8.le_iff_toNat_le, UInt8.le_iff_toNat_le, toNat_ofNat_of_lt hn]
  exact h

/-- Every character has one of the four forms. -/
theorem spelling_char (c : Char) : Spelling (String.utf8EncodeChar c) := by
  have hvalid : c.val.toNat < 0xD800 ∨ 0xDFFF < c.val.toNat ∧ c.val.toNat < 0x110000 := c.valid
  rw [String.utf8EncodeChar]
  split
  · next h =>
    refine .one ?_
    rw [UInt8.lt_iff_toNat_lt, toNat_ofNat_of_lt (by omega)]
    simp only [UInt8.reduceToNat]
    omega
  split
  · next h₁ h₂ =>
    refine .two (ofNat_between _ _ ?_) (isTail_ofNat _)
    simp only [UInt8.reduceToNat]
    omega
  split
  · next h₁ h₂ h₃ =>
    refine .three (ofNat_between _ _ ?_) ?_ (isTail_ofNat _)
    · simp only [UInt8.reduceToNat]
      omega
    · -- The first byte tells where the second has to be, so both are compared as numbers.
      simp only [isSecondOfThree, isTail_ofNat, decide_eq_true_eq, true_and,
        UInt8.le_iff_toNat_le, ← UInt8.toNat_inj]
      rw [toNat_ofNat_of_lt (by omega), toNat_ofNat_of_lt (by omega)]
      simp only [UInt8.reduceToNat]
      omega
  · next h₁ h₂ h₃ =>
    refine .four (ofNat_between _ _ ?_) ?_ (isTail_ofNat _) (isTail_ofNat _)
    · simp only [UInt8.reduceToNat]
      omega
    · simp only [isSecondOfFour, isTail_ofNat, decide_eq_true_eq, true_and,
        UInt8.le_iff_toNat_le, ← UInt8.toNat_inj]
      rw [toNat_ofNat_of_lt (by omega), toNat_ofNat_of_lt (by omega)]
      simp only [UInt8.reduceToNat]
      omega

theorem utf8EncodeChar_of_lt {c : Char} (h : c.toNat < 128) :
    String.utf8EncodeChar c = [c.toNat.toUInt8] := by
  rw [String.utf8EncodeChar]
  exact if_pos (Nat.le_of_lt_succ h)

/-- The bytes of a character past ASCII are past ASCII. -/
theorem le_of_mem_utf8EncodeChar {c : Char} (h : 128 ≤ c.toNat) {b : UInt8}
    (hb : b ∈ String.utf8EncodeChar c) : 0x80 ≤ b := by
  have hsize : c.utf8Size ≠ 1 := by
    rw [ne_eq, Char.utf8Size_eq_one_iff, UInt32.le_iff_toNat_le]
    exact Nat.not_le.2 h
  have hform := spelling_char c
  rw [← String.length_utf8EncodeChar] at hsize
  generalize String.utf8EncodeChar c = l at hform hsize hb
  cases hform with
  | one => exact absurd rfl hsize
  | two ha hb' =>
    simp only [isTail, decide_eq_true_eq] at hb'
    simp only [List.mem_cons, List.not_mem_nil, or_false] at hb
    rcases hb with rfl | rfl
    · exact UInt8.le_trans (by decide : (0x80 : UInt8) ≤ 0xC2) ha.1
    · exact hb'.1
  | three ha hb' hc =>
    simp only [isSecondOfThree, isTail, decide_eq_true_eq] at hb' hc
    simp only [List.mem_cons, List.not_mem_nil, or_false] at hb
    rcases hb with rfl | rfl | rfl
    · exact UInt8.le_trans (by decide : (0x80 : UInt8) ≤ 0xE0) ha.1
    · exact hb'.1.1
    · exact hc.1
  | four ha hb' hc hd =>
    simp only [isSecondOfFour, isTail, decide_eq_true_eq] at hb' hc hd
    simp only [List.mem_cons, List.not_mem_nil, or_false] at hb
    rcases hb with rfl | rfl | rfl | rfl
    · exact UInt8.le_trans (by decide : (0x80 : UInt8) ≤ 0xF0) ha.1
    · exact hb'.1.1
    · exact hc.1
    · exact hd.1

/-- A text whose first byte is ASCII begins with the character of that byte. -/
theorem toNat_eq_of_encodeChar_append {c : Char} {rest bytes : List UInt8} {b : UInt8}
    (hb : b < 0x80) (h : String.utf8EncodeChar c ++ rest = b :: bytes) : c.toNat = b.toNat := by
  by_cases hc : c.toNat < 128
  · rw [utf8EncodeChar_of_lt hc, List.singleton_append, List.cons.injEq] at h
    rw [← h.1]
    exact (toNat_ofNat_of_lt (by omega)).symm
  · have hmem : b ∈ String.utf8EncodeChar c := by
      cases hchar : String.utf8EncodeChar c with
      | nil =>
        have hlength := String.length_utf8EncodeChar c
        rw [hchar, List.length_nil] at hlength
        exact absurd hlength.symm c.utf8Size_pos.ne'
      | cons b' bytes' =>
        rw [hchar, List.cons_append, List.cons.injEq] at h
        exact h.1 ▸ List.mem_cons_self ..
    exact absurd hb (UInt8.not_lt.2 (le_of_mem_utf8EncodeChar (Nat.le_of_not_lt hc) hmem))

/-- What follows the first of two bytes. -/
theorem locate_two {a : UInt8} (ha : 0xC2 ≤ a ∧ a ≤ 0xDF) (index : Nat) (rest : List UInt8) :
    locate index (a :: rest) = match rest with
      | [] => .incomplete index
      | b :: rest => if isTail b then locate (index + 2) rest else .invalid index 1 := by
  have h₁ : ¬ a < 0x80 := by grind
  rw [locate.eq_def]
  exact (if_neg h₁).trans (if_pos ha)

/-- What follows the first of three bytes. -/
theorem locate_three {a : UInt8} (ha : 0xE0 ≤ a ∧ a ≤ 0xEF) (index : Nat) (rest : List UInt8) :
    locate index (a :: rest) = match rest with
      | [] => .incomplete index
      | b :: rest =>
        if !isSecondOfThree a b then .invalid index 1
        else match rest with
          | [] => .incomplete index
          | c :: rest => if isTail c then locate (index + 3) rest else .invalid index 2 := by
  have h₁ : ¬ a < 0x80 := by grind
  have h₂ : ¬ (0xC2 ≤ a ∧ a ≤ 0xDF) := by grind
  rw [locate.eq_def]
  exact (if_neg h₁).trans ((if_neg h₂).trans (if_pos ha))

/-- What follows the first of four bytes. -/
theorem locate_four {a : UInt8} (ha : 0xF0 ≤ a ∧ a ≤ 0xF4) (index : Nat) (rest : List UInt8) :
    locate index (a :: rest) = match rest with
      | [] => .incomplete index
      | b :: rest =>
        if !isSecondOfFour a b then .invalid index 1
        else match rest with
          | [] => .incomplete index
          | c :: rest =>
            if !isTail c then .invalid index 2
            else match rest with
              | [] => .incomplete index
              | d :: rest => if isTail d then locate (index + 4) rest else .invalid index 3 := by
  have h₁ : ¬ a < 0x80 := by grind
  have h₂ : ¬ (0xC2 ≤ a ∧ a ≤ 0xDF) := by grind
  have h₃ : ¬ (0xE0 ≤ a ∧ a ≤ 0xEF) := by grind
  rw [locate.eq_def]
  exact (if_neg h₁).trans ((if_neg h₂).trans ((if_neg h₃).trans (if_pos ha)))

/-- The bytes of a character are looked over as a whole. -/
theorem locate_append {l : List UInt8} (h : Spelling l) (index : Nat) (rest : List UInt8) :
    locate index (l ++ rest) = locate (index + l.length) rest := by
  cases h with
  | @one a ha =>
    rw [List.cons_append, List.nil_append, locate.eq_def]
    exact if_pos ha
  | @two a b ha hb => exact (locate_two ha index (b :: rest)).trans (if_pos hb)
  | @three a b c ha hb hc =>
    refine (locate_three ha index (b :: c :: rest)).trans ?_
    simp only [hb, if_pos hc]
    rfl
  | @four a b c d ha hb hc hd =>
    refine (locate_four ha index (b :: c :: d :: rest)).trans ?_
    simp only [hb, hc, if_pos hd]
    rfl

theorem locate_encode_append (index : Nat) (cs : List Char) (rest : List UInt8) :
    locate index (encode cs ++ rest) = locate (index + (encode cs).length) rest := by
  induction cs generalizing index with
  | nil => rfl
  | cons c cs ih =>
    rw [encode_cons, List.append_assoc, locate_append (spelling_char c), ih, List.length_append,
      Nat.add_assoc]

/-- What is begun and not ended of a character is looked over as incomplete. -/
theorem locate_take {l : List UInt8} (h : Spelling l) (index : Nat) {n : Nat} (hn : n < l.length) :
    locate index (l.take n) = .incomplete index := by
  cases h with
  | @one a ha =>
    obtain rfl : n = 0 := by simpa using hn
    rfl
  | @two a b ha hb =>
    have hn : n = 0 ∨ n = 1 := by simp only [List.length_cons, List.length_nil] at hn; omega
    rcases hn with rfl | rfl
    · rfl
    · exact locate_two ha index []
  | @three a b c ha hb hc =>
    have hn : n = 0 ∨ n = 1 ∨ n = 2 := by
      simp only [List.length_cons, List.length_nil] at hn
      omega
    rcases hn with rfl | rfl | rfl
    · rfl
    · exact locate_three ha index []
    · refine (locate_three ha index [b]).trans ?_
      simp only [hb]
      rfl
  | @four a b c d ha hb hc hd =>
    have hn : n = 0 ∨ n = 1 ∨ n = 2 ∨ n = 3 := by
      simp only [List.length_cons, List.length_nil] at hn
      omega
    rcases hn with rfl | rfl | rfl | rfl
    · rfl
    · exact locate_four ha index []
    · refine (locate_four ha index [b]).trans ?_
      simp only [hb]
      rfl
    · refine (locate_four ha index [b, c]).trans ?_
      simp only [hb, hc]
      rfl

/-! ## Cut texts -/

/-- Some bytes of a character, of which more are to come. -/
def IsBeginning (part : List UInt8) (c : Char) : Prop :=
  part <+: String.utf8EncodeChar c ∧ part.length < c.utf8Size

theorem isBeginning_nil (c : Char) : IsBeginning [] c := ⟨List.nil_prefix, c.utf8Size_pos⟩

/-- At most three bytes are the beginning of a character. -/
theorem IsBeginning.length_le {part : List UInt8} {c : Char} (h : IsBeginning part c) :
    part.length ≤ 3 := by
  have := h.2.trans_le c.utf8Size_le_four
  omega

theorem IsBeginning.locate {part : List UInt8} {c : Char} (h : IsBeginning part c) (index : Nat) :
    locate index part = .incomplete index := by
  have hlength := h.2
  rw [← String.length_utf8EncodeChar] at hlength
  rw [List.prefix_iff_eq_take.1 h.1]
  exact locate_take (spelling_char c) index hlength

/-- Characters end where the next one begins, so what is begun is no text. -/
theorem IsBeginning.append_ne {part : List UInt8} {c : Char} (h : IsBeginning part c)
    (hne : part ≠ []) (cs cs' : List Char) : encode cs ++ part ≠ encode cs' := by
  intro heq
  induction cs generalizing cs' with
  | nil =>
    cases cs' with
    | nil => exact hne heq
    | cons d cs' =>
      -- The bytes would begin with all of a character, of which they are only a part.
      obtain ⟨rest, hrest⟩ := h.1
      rw [encode_nil, List.nil_append, encode_cons] at heq
      have hchars : String.utf8EncodeChar c ++ [] =
          String.utf8EncodeChar d ++ (encode cs' ++ rest) := by
        rw [List.append_nil, ← hrest, heq, List.append_assoc]
      have hcd : c = d := eq_of_encodeChar_append hchars
      have hlength := congrArg List.length heq
      rw [List.length_append, String.length_utf8EncodeChar, ← hcd] at hlength
      have := h.2
      omega
  | cons d cs ih =>
    cases cs' with
    | nil =>
      have hlength := congrArg List.length heq
      have := d.utf8Size_pos
      simp only [encode_cons, List.length_append, String.length_utf8EncodeChar, encode_nil,
        List.length_nil] at hlength
      omega
    | cons d' cs' =>
      rw [encode_cons, encode_cons, List.append_assoc] at heq
      obtain rfl : d = d' := eq_of_encodeChar_append heq
      exact ih cs' (List.append_cancel_left heq)

/-- A text that is cut off inside a character reads as incomplete from there on. -/
theorem decode_encode_append (cs : List Char) {part : List UInt8} {c : Char}
    (h : IsBeginning part c) (hne : part ≠ []) :
    decode (encode cs ++ part).toByteArray = .error (.incomplete (encode cs).length) := by
  have hinvalid : ¬ (encode cs ++ part).toByteArray.IsValidUTF8 := by
    rintro ⟨cs', hcs'⟩
    refine h.append_ne hne cs cs' ?_
    have hlist := congrArg (fun b : ByteArray => b.data.toList) hcs'
    rwa [List.utf8Encode, List.data_toByteArray, List.data_toByteArray] at hlist
  rw [decode, String.fromUTF8?, dif_neg hinvalid]
  refine congrArg Except.error ?_
  rw [List.data_toByteArray, locate_encode_append, h.locate, Nat.zero_add]

/-- Some bytes of the first of the characters still to come, of which more are to come. -/
inductive Begins : List UInt8 → List Char → Prop where
  | nothing : Begins [] []
  | character {part : List UInt8} {c : Char} (h : IsBeginning part c) (cs : List Char) :
    Begins part (c :: cs)

theorem begins_nil (cs : List Char) : Begins [] cs := by
  cases cs with
  | nil => exact .nothing
  | cons c cs => exact .character (isBeginning_nil c) cs

/-- What begins all the bytes that are left is not all of them, unless nothing is left. -/
theorem Begins.eq_nil {part : List UInt8} {cs : List Char} (h : Begins part cs)
    (hpart : part = encode cs) : cs = [] := by
  cases h with
  | nothing => rfl
  | character h cs =>
    have hlength := h.2
    rw [hpart, encode_cons, List.length_append, String.length_utf8EncodeChar] at hlength
    omega

theorem Begins.length_le {part : List UInt8} {cs : List Char} (h : Begins part cs) :
    part.length ≤ 3 := by
  cases h with
  | nothing => exact Nat.zero_le _
  | character h _ => exact h.length_le

/-- Before a cut there are whole characters and the beginning of the next. -/
theorem exists_encode_append_of_isPrefix {bytes : List UInt8} {cs : List Char}
    (h : bytes <+: encode cs) :
    ∃ done rest part, cs = done ++ rest ∧ bytes = encode done ++ part ∧ Begins part rest := by
  induction cs generalizing bytes with
  | nil => exact ⟨[], [], [], rfl, List.eq_nil_of_prefix_nil h, .nothing⟩
  | cons c cs ih =>
    rw [encode_cons] at h
    rcases Nat.lt_or_ge bytes.length c.utf8Size with hlt | hge
    · have hpart : bytes <+: String.utf8EncodeChar c :=
        List.prefix_of_prefix_length_le h (List.prefix_append _ _) (by
          rw [String.length_utf8EncodeChar]; omega)
      exact ⟨[], c :: cs, bytes, rfl, rfl, .character ⟨hpart, hlt⟩ cs⟩
    · obtain ⟨bytes, rfl⟩ : String.utf8EncodeChar c <+: bytes :=
        List.prefix_of_prefix_length_le (List.prefix_append _ _) h (by
          rw [String.length_utf8EncodeChar]; omega)
      obtain ⟨done, rest, part, rfl, rfl, hpart⟩ := ih ((List.prefix_append_right_inj _).1 h)
      exact ⟨c :: done, rest, part, rfl, by rw [encode_cons, List.append_assoc], hpart⟩

end StatusList.Utf8
