import StatusList.Proofs.Text.Blank
import StatusList.Proofs.Text.Base64Url
import StatusList.Proofs.Json.Records
import StatusList.Token

/-!
# Compact tokens round trip

A compact token is read as it was written, whatever ASCII blanks have been put into it and
whatever blanks around it, and a verifier that accepts it has been asked once, about the
text before the last dot as it was sent (`Token.readLogged_compact`).

A text is `Spaced` if it is a token with blanks in it. Trimming it takes away the blanks
around it and perhaps some more; what is left still has the two dots of the token, because
no digit of base64url is a dot and no blank is one (`Body.exists_part`).
-/

namespace StatusList

open Text (isBlank isAsciiBlank trimChars)

/-! ## Parts -/

namespace Body

theorem splitDots_last {part : List Char} (h : '.' ∉ part) (done : List (List Char))
    (current : List Char) :
    splitDots done current part = done.reverse ++ [current.reverse ++ part] := by
  induction part generalizing current with
  | nil => rw [splitDots, List.reverse_cons, List.append_nil]
  | cons c part ih =>
    obtain ⟨hc, hpart⟩ := List.ne_and_not_mem_of_not_mem_cons h
    rw [splitDots, if_neg (Ne.symm hc), ih hpart, List.reverse_cons, List.append_assoc,
      List.singleton_append]

theorem splitDots_append {part : List Char} (h : '.' ∉ part) (done : List (List Char))
    (current rest : List Char) :
    splitDots done current (part ++ '.' :: rest) =
      splitDots ((current.reverse ++ part) :: done) [] rest := by
  induction part generalizing current with
  | nil => rw [List.nil_append, splitDots, if_pos rfl, List.append_nil]
  | cons c part ih =>
    obtain ⟨hc, hpart⟩ := List.ne_and_not_mem_of_not_mem_cons h
    rw [List.cons_append, splitDots, if_neg (Ne.symm hc), ih hpart, List.reverse_cons,
      List.append_assoc, List.singleton_append]

/-- Two dots make three parts. -/
theorem splitDots_three {a b c : List Char} (ha : '.' ∉ a) (hb : '.' ∉ b) (hc : '.' ∉ c) :
    splitDots [] [] (a ++ '.' :: (b ++ '.' :: c)) = [a, b, c] := by
  rw [splitDots_append ha, splitDots_append hb, splitDots_last hc]
  rfl

/-- The text of a list of characters before its last dot. -/
def beforeLastDot (cs : List Char) : List Char :=
  ((cs.reverse.dropWhile (· ≠ '.')).drop 1).reverse

theorem beforeLastDot_append (cs : List Char) {last : List Char} (h : '.' ∉ last) :
    beforeLastDot (cs ++ '.' :: last) = cs := by
  have hlast := all_ne_of_not_mem (mt List.mem_reverse.1 h)
  rw [beforeLastDot, List.reverse_append, List.reverse_cons, List.append_assoc,
    List.dropWhile_append_of_pos hlast]
  exact List.reverse_reverse cs

theorem toList_dot : ".".toList = ['.'] := by decide

/-- The first two of three parts, with the dot between them, are the text before the last
    dot. -/
theorem ofList_beforeLastDot (a b : List Char) {c : List Char} (hc : '.' ∉ c) :
    .ofList (beforeLastDot (a ++ '.' :: (b ++ '.' :: c))) =
      String.ofList a ++ "." ++ String.ofList b := by
  have hsplit : a ++ '.' :: (b ++ '.' :: c) = (a ++ '.' :: b) ++ '.' :: c := by
    rw [List.append_assoc, List.cons_append]
  rw [hsplit, beforeLastDot_append _ hc]
  apply String.toList_inj.1
  simp only [String.toList_append, String.toList_ofList, List.append_assoc, toList_dot,
    List.singleton_append]

/-! ## Blanks inside -/

/-- Whether a character counts where ASCII blanks do not. -/
def counts (c : Char) : Bool := !isAsciiBlank c

/-- A dot is not left out with the ASCII blanks. -/
theorem dot_not_mem_of_filter {cs part : List Char} (h : cs.filter counts = part)
    (hpart : '.' ∉ part) : '.' ∉ cs := by
  intro hdot
  have hkept : '.' ∈ cs.filter counts := List.mem_filter.2 ⟨hdot, by decide⟩
  exact hpart (h ▸ hkept)

/-- What ends at a dot when the ASCII blanks are left out ends at a dot. -/
theorem exists_part {cs part rest : List Char} (h : cs.filter counts = part ++ '.' :: rest)
    (hpart : '.' ∉ part) :
    ∃ part' rest', cs = part' ++ '.' :: rest' ∧ part'.filter counts = part ∧ '.' ∉ part' ∧
      rest'.filter counts = rest := by
  obtain ⟨front, back, rfl, hfront, hback⟩ := List.filter_eq_append_iff.1 h
  obtain ⟨blanks, rest', rfl, hblanks, -, hrest⟩ := List.filter_eq_cons_iff.1 hback
  have hfilter : (front ++ blanks).filter counts = part := by
    rw [List.filter_append, hfront, List.filter_eq_nil_iff.2 hblanks, List.append_nil]
  exact ⟨front ++ blanks, rest', by rw [List.append_assoc], hfilter,
    dot_not_mem_of_filter hfilter hpart, hrest⟩

/-- A text that has three parts without dots when the ASCII blanks are left out is cut into these
    parts, with the blanks in them. -/
theorem exists_three_parts {cs a b c : List Char}
    (h : cs.filter counts = a ++ '.' :: (b ++ '.' :: c)) (ha : '.' ∉ a) (hb : '.' ∉ b)
    (hc : '.' ∉ c) :
    ∃ a' b' c', cs = a' ++ '.' :: (b' ++ '.' :: c') ∧ splitDots [] [] cs = [a', b', c'] ∧
      '.' ∉ c' ∧ a'.filter counts = a ∧ b'.filter counts = b ∧ c'.filter counts = c := by
  obtain ⟨a', rest, rfl, hfirst, hdota, hrest⟩ := exists_part h ha
  obtain ⟨b', c', rfl, hsecond, hdotb, hlast⟩ := exists_part hrest hb
  have hdotc : '.' ∉ c' := dot_not_mem_of_filter hlast hc
  exact ⟨a', b', c', rfl, splitDots_three hdota hdotb hdotc, hdotc, hfirst, hsecond, hlast⟩

end Body

/-! ## Tokens -/

/-- The spelling of a byte string has no dots, no braces and no blanks. -/
theorem of_mem_encodeBase64 {bytes : ByteArray} {c : Char} (h : c ∈ (encodeBase64 bytes).toList) :
    c ≠ '.' ∧ c ≠ '\x7b' ∧ isBlank c = false := by
  rw [encodeBase64, String.toList_ofList] at h
  obtain ⟨digit, hdigit, rfl⟩ := Base64Url.exists_digit_of_mem h
  exact ⟨(Base64Url.char_ne hdigit).1, (Base64Url.char_ne hdigit).2, Base64Url.isBlank_char hdigit⟩

theorem dot_not_mem_encodeBase64 (bytes : ByteArray) : '.' ∉ (encodeBase64 bytes).toList :=
  fun h => (of_mem_encodeBase64 h).1 rfl

/-- A part that is a spelling with ASCII blanks in it is decoded. -/
theorem Body.decodeSegment_of_filter (segment : Segment) {part : List Char} {bytes : ByteArray}
    (h : part.filter counts = (encodeBase64 bytes).toList) :
    decodeSegment segment (.ofList part) = .ok bytes := by
  have hdecode : decodeBase64 (.ofList part) = .ok bytes :=
    decodeBase64_of_filter (by rw [String.toList_ofList]; exact h)
  rw [decodeSegment, hdecode]
  rfl

namespace Token

/-- The compact token of a header, claims and a signature. -/
def compact (header : Header) (claims : Claims) (signature : ByteArray) : String :=
  encodeBase64 header.toJson.compact.toUTF8 ++ "." ++ encodeBase64 claims.toJson.compact.toUTF8
    ++ "." ++ encodeBase64 signature

/-- A text that is another one with ASCII blanks put in anywhere and any blanks around
    it. -/
def Spaced (text token : String) : Prop :=
  ∃ before inner after : List Char, text.toList = before ++ inner ++ after ∧
    (∀ c ∈ before, isBlank c = true) ∧ (∀ c ∈ after, isBlank c = true) ∧
    inner.filter (fun c => !isAsciiBlank c) = token.toList

variable (header : Header) (claims : Claims) (signature : ByteArray)

theorem toList_compact :
    (compact header claims signature).toList =
      (encodeBase64 header.toJson.compact.toUTF8).toList ++ '.' ::
        ((encodeBase64 claims.toJson.compact.toUTF8).toList ++ '.' ::
          (encodeBase64 signature).toList) := by
  simp only [compact, String.toList_append, List.append_assoc, Body.toList_dot, List.cons_append,
    List.nil_append]

/-- A token has no blanks in it, and no brace. -/
theorem of_mem_compact {c : Char} (h : c ∈ (compact header claims signature).toList) :
    c ≠ '\x7b' ∧ isBlank c = false := by
  have hpart : ∀ bytes : ByteArray, c ∈ (encodeBase64 bytes).toList →
      c ≠ '\x7b' ∧ isBlank c = false := fun _ hmem => (of_mem_encodeBase64 hmem).2
  rw [toList_compact, List.mem_append, List.mem_cons, List.mem_append, List.mem_cons] at h
  rcases h with h | rfl | h | rfl | h
  · exact hpart _ h
  · decide
  · exact hpart _ h
  · decide
  · exact hpart _ h

/-- What is checked of a token that came as `text`: header and signature, and between them
    what stands before the last dot of the trimmed text. -/
def checkOf (text : String) : Check where
  header := header
  signingInput := (String.ofList (Body.beforeLastDot (trimChars text.toList))).toUTF8
  signature := signature

/-- The body of a text that is a token with ASCII blanks in it. -/
theorem readTrimmed_of_filter {cs : List Char}
    (h : cs.filter Body.counts = (compact header claims signature).toList) :
    Body.readTrimmed cs =
      .ok (.compact ⟨header, (String.ofList (Body.beforeLastDot cs)).toUTF8, signature⟩
        claims) := by
  have hbrace : cs.head? ≠ some '\x7b' := by
    intro hhead
    have hmem : '\x7b' ∈ cs.filter Body.counts :=
      List.mem_filter.2 ⟨List.mem_of_mem_head? hhead, by decide⟩
    rw [h] at hmem
    exact (of_mem_compact header claims signature hmem).1 rfl
  rw [toList_compact] at h
  obtain ⟨a, b, c, rfl, hparts, hdotc, ha, hb, hc⟩ := Body.exists_three_parts h
    (dot_not_mem_encodeBase64 _) (dot_not_mem_encodeBase64 _) (dot_not_mem_encodeBase64 _)
  have hhead : Body.readSegment .header Header.record.read (.ofList a) = .ok header := by
    rw [Body.readSegment, Body.decodeSegment_of_filter .header ha]
    exact congrArg (Except.mapError _) header.parse_compact
  have hpayload : Body.readSegment .payload Claims.record.read (.ofList b) = .ok claims := by
    rw [Body.readSegment, Body.decodeSegment_of_filter .payload hb]
    exact congrArg (Except.mapError _) claims.parse_compact
  rw [Body.readTrimmed, if_neg hbrace, Body.readCompact, hparts]
  simp only [hhead, hpayload, Body.decodeSegment_of_filter .signature hc,
    Body.ofList_beforeLastDot a b hdotc, bind, Except.bind, pure, Except.pure]

/-- Trimming leaves the token, with ASCII blanks in it. -/
theorem Spaced.filter_trimChars {text token : String} (h : Spaced text token)
    (htoken : ∀ c ∈ token.toList, isBlank c = false) :
    (trimChars text.toList).filter Body.counts = token.toList := by
  obtain ⟨before, inner, after, htext, hbefore, hafter, hinner⟩ := h
  -- No character of the token is a blank, so every blank inside is one that was put there.
  have hblank : ∀ c ∈ inner, isBlank c = true → Body.counts c = false := by
    intro c hc hblank
    by_contra hcounts
    have hmem : c ∈ inner.filter Body.counts :=
      List.mem_filter.2 ⟨hc, Bool.not_eq_false _ ▸ hcounts⟩
    have hnot := htoken c (hinner ▸ hmem)
    rw [hblank] at hnot
    exact Bool.noConfusion hnot
  rw [htext, Text.trimChars_append_right hafter, Text.trimChars_append_left hbefore,
    Text.filter_trimChars hblank]
  exact hinner

/-- A token between blanks. -/
theorem spaced_append {before after : String} (hbefore : ∀ c ∈ before.toList, isBlank c = true)
    (hafter : ∀ c ∈ after.toList, isBlank c = true) :
    Spaced (before ++ compact header claims signature ++ after)
      (compact header claims signature) := by
  refine ⟨_, _, _, ?_, hbefore, hafter, List.filter_eq_self.2 fun c hc => ?_⟩
  · rw [String.toList_append, String.toList_append]
  · have hblank := (of_mem_compact header claims signature hc).2
    by_contra hascii
    have hcontra : isBlank c = true := Text.isBlank_of_isAsciiBlank (by simpa using hascii)
    rw [hblank] at hcontra
    exact Bool.noConfusion hcontra

/-- A token is its own text. -/
theorem spaced_compact :
    Spaced (compact header claims signature) (compact header claims signature) := by
  have hnone : ∀ c ∈ "".toList, isBlank c = true := by simp
  have hspaced := spaced_append header claims signature hnone hnone
  rwa [String.empty_append, String.append_empty] at hspaced

/-- A body that is a token with blanks in it and around it. -/
theorem readLogged_of_spaced {text : String}
    (h : Spaced text (compact header claims signature)) {verifier : Option Verifier}
    (haccept : ∀ verify ∈ verifier, verify (checkOf header signature text) = .ok ()) :
    readLogged verifier text.toUTF8 =
      (.ok ⟨some header, claims⟩, verifier.toList.map fun _ => checkOf header signature text) := by
  have hfilter := h.filter_trimChars fun c hc => (of_mem_compact header claims signature hc).2
  have hbody : Body.read text.toUTF8 = .ok (.compact (checkOf header signature text) claims) := by
    rw [Body.read, Utf8.decode_toUTF8]
    exact readTrimmed_of_filter header claims signature hfilter
  rw [readLogged, hbody]
  cases verifier with
  | none => rfl
  | some verify =>
    have hverify := haccept verify rfl
    simp only [ofBody, hverify]
    rfl

/-- What is checked of a token that came as it is. -/
theorem checkOf_compact :
    checkOf header signature (compact header claims signature) =
      ⟨header, (encodeBase64 header.toJson.compact.toUTF8 ++ "."
        ++ encodeBase64 claims.toJson.compact.toUTF8).toUTF8, signature⟩ := by
  have htrim := Text.trimChars_eq_self fun c hc => (of_mem_compact header claims signature hc).2
  have hlast : (compact header claims signature).toList =
      (encodeBase64 header.toJson.compact.toUTF8 ++ "."
        ++ encodeBase64 claims.toJson.compact.toUTF8).toList ++ '.' ::
          (encodeBase64 signature).toList := by
    rw [compact, String.toList_append, String.toList_append, List.append_assoc,
      Body.toList_dot, List.singleton_append]
  rw [checkOf, htrim, hlast, Body.beforeLastDot_append _ (dot_not_mem_encodeBase64 _),
    String.ofList_toList]

/-- A compact token is read as its header and its claims, and a verifier that accepts it is
    asked once, about header, signature and the text of the token before its last dot. The
    same holds of every text that is the token with ASCII blanks in it and any blanks
    around it; what is checked is then the trimmed text before its last dot, as it was
    sent. -/
theorem readLogged_compact (verifier : Option Verifier) :
    let token := compact header claims signature
    let check : Check := ⟨header, (encodeBase64 header.toJson.compact.toUTF8 ++ "."
      ++ encodeBase64 claims.toJson.compact.toUTF8).toUTF8, signature⟩
    ((∀ verify ∈ verifier, verify check = .ok ()) →
      readLogged verifier token.toUTF8 =
        (.ok ⟨some header, claims⟩, verifier.toList.map fun _ => check)) ∧
    (∀ text, Spaced text token →
      (∀ verify ∈ verifier, verify (checkOf header signature text) = .ok ()) →
      readLogged verifier text.toUTF8 =
        (.ok ⟨some header, claims⟩,
          verifier.toList.map fun _ => checkOf header signature text)) := by
  refine ⟨fun haccept => ?_, fun text hspaced haccept => ?_⟩
  · have hcheck := checkOf_compact header claims signature
    rw [← hcheck] at haccept ⊢
    exact readLogged_of_spaced header claims signature (spaced_compact header claims signature)
      haccept
  · exact readLogged_of_spaced header claims signature hspaced haccept

/-- A token between two blanks, shown to a verifier that knows its signature. -/
theorem readLogged_compact_between_blanks :
    let header : Header := ⟨"ES256", some "statuslist+jwt", none⟩
    let claims : Claims := ⟨"https://issuer.example.com",
      "https://issuer.example.com/statuslists/1", 1686920170, some 2291720170, some 43200,
      ⟨.one, "eNrbuRgAAhcBXQ", none⟩⟩
    let signature := "sig".toUTF8
    let verify : Verifier := fun check =>
      if check.signature = signature then .ok () else .error (.signatureRejected "unknown")
    let text := "\n" ++ compact header claims signature ++ " "
    Spaced text (compact header claims signature) ∧
    verify (checkOf header signature text) = .ok () ∧
    readLogged (some verify) text.toUTF8 =
      (.ok ⟨some header, claims⟩, [checkOf header signature text]) := by
  intro header claims signature verify text
  have hline : ∀ c ∈ "\n".toList, isBlank c = true := by
    intro c hc
    obtain rfl := List.mem_singleton.1 hc
    decide
  have hspace : ∀ c ∈ " ".toList, isBlank c = true := by
    intro c hc
    obtain rfl := List.mem_singleton.1 hc
    decide
  have hspaced : Spaced text (compact header claims signature) :=
    spaced_append header claims signature hline hspace
  have haccept : verify (checkOf header signature text) = .ok () := if_pos rfl
  refine ⟨hspaced, haccept, ?_⟩
  refine (readLogged_compact header claims signature (some verify)).2 text hspaced ?_
  intro verify' hverify
  rw [← Option.some.inj hverify]
  exact haccept

end Token

end StatusList
