import StatusList.Proofs.BitStrings
import StatusList.Proofs.Text.Base64Url

/-!
# Canonical spellings

The rule of base64url, told of bits: the bits of a byte string, the highest of each byte first,
are cut into digits of six, after fewer than six zeros have been put behind them if they do not
come out even, and each digit has its character of the alphabet (`Base64Url.IsSpelling`). There is
no padding. What is spelled by this rule is what is read, if white space is left out of it
(`canonical_spellings_are_read`).

Whether characters are a spelling can be seen without looking for the bytes: they are all in the
alphabet, they are not one more than a multiple of four, and the bits of the last digit that
belong to no byte are zero (`Base64Url.IsCanonical`).
-/

namespace StatusList

namespace Base64Url

open Text

/-- The characters of the digits from zero on. -/
def alphabet : List Char :=
  "ABCDEFGHIJKLMNOPQRSTUVWXYZabcdefghijklmnopqrstuvwxyz0123456789-_".toList

/-- The bits of a byte string, the highest of each byte first. -/
def bitsOf (bytes : List UInt8) : List Bool := bytes.flatMap fun b => highestFirst 8 b.toNat

/-- The characters are those of digits whose bits are the bits of the bytes, and zeros behind
    them which are too few for another digit. -/
def IsSpelling (cs : List Char) (bytes : List UInt8) : Prop :=
  ∃ digits : List Nat, ∃ zeros < 6, digits.map (alphabet[·]?) = cs.map some ∧
    digits.flatMap (highestFirst 6) = bitsOf bytes ++ List.replicate zeros false

/-! ## Characters -/

theorem getElem?_alphabet {digit : Nat} (h : digit < 64) :
    alphabet[digit]? = some (char digit) := by
  decide +kernel +revert

theorem getElem?_of_digit? {c : Char} {digit : Nat} (h : digit? c = some digit) :
    alphabet[digit]? = some c := by
  obtain ⟨hlt, rfl⟩ := eq_char_of_digit? h
  exact getElem?_alphabet hlt

theorem lt_of_getElem?_alphabet {digit : Nat} {c : Char} (h : alphabet[digit]? = some c) :
    digit < 64 := (List.getElem?_eq_some_iff.1 h).1

/-- The alphabet has the characters of which there is a digit. -/
theorem mem_alphabet_iff {c : Char} : c ∈ alphabet ↔ ∃ digit, digit? c = some digit := by
  rw [List.mem_iff_getElem?]
  constructor
  · rintro ⟨digit, h⟩
    have hdigit := lt_of_getElem?_alphabet h
    rw [getElem?_alphabet hdigit, Option.some.injEq] at h
    exact ⟨digit, h ▸ digit?_char hdigit⟩
  · rintro ⟨digit, h⟩
    exact ⟨digit, getElem?_of_digit? h⟩

/-- No blank of whatever kind is in the alphabet, and none of the characters that other kinds of
    base64 have. -/
theorem not_mem_alphabet {c : Char} (h : isBlank c ∨ c ∈ ['+', '/', '=']) : c ∉ alphabet := by
  intro hmem
  obtain ⟨digit, hdigit⟩ := mem_alphabet_iff.1 hmem
  obtain ⟨hlt, rfl⟩ := eq_char_of_digit? hdigit
  rcases h with hblank | hother
  · rw [isBlank_char hlt] at hblank
    cases hblank
  · have hnone : ∀ digit < 64, char digit ∉ ['+', '/', '='] := by decide +kernel
    exact hnone digit hlt hother

/-! ## Spellings -/

/-- The digits of the spelling of a byte string, from the left. -/
def digitsOf : List UInt8 → List Nat
  | a :: b :: c :: rest =>
    let n := (a.toNat * 256 + b.toNat) * 256 + c.toNat
    n / 262144 :: n / 4096 % 64 :: n / 64 % 64 :: n % 64 :: digitsOf rest
  | [a, b] =>
    let n := (a.toNat * 256 + b.toNat) * 4
    [n / 4096, n / 64 % 64, n % 64]
  | [a] => [a.toNat * 16 / 64, a.toNat * 16 % 64]
  | [] => []

theorem groups_eq_map (bytes : List UInt8) : groups bytes = (digitsOf bytes).map char := by
  fun_induction groups bytes with
  | case1 a b c rest n ih => rw [ih]; rfl
  | case2 | case3 | case4 => rfl

theorem lt_of_mem_digitsOf {bytes : List UInt8} : ∀ digit ∈ digitsOf bytes, digit < 64 := by
  fun_induction digitsOf bytes with
  | case1 a b c rest n ih =>
    have ha := a.toNat_lt
    have hb := b.toNat_lt
    have hc := c.toNat_lt
    simp only [List.forall_mem_cons]
    exact ⟨by omega, by omega, by omega, by omega, ih⟩
  | case2 a b n =>
    have ha := a.toNat_lt
    have hb := b.toNat_lt
    simp only [List.forall_mem_cons]
    exact ⟨by omega, by omega, by omega, List.forall_mem_nil _⟩
  | case3 a =>
    have ha := a.toNat_lt
    simp only [List.forall_mem_cons]
    exact ⟨by omega, by omega, List.forall_mem_nil _⟩
  | case4 => exact List.forall_mem_nil _

/-- Digits of six bits one after the other are the bits of one number. -/
theorem highestFirst_digits (n : Nat) :
    highestFirst 12 n = highestFirst 6 (n / 64) ++ highestFirst 6 (n % 64) ∧
    highestFirst 18 n =
      highestFirst 6 (n / 4096) ++ (highestFirst 6 (n / 64 % 64) ++ highestFirst 6 (n % 64)) ∧
    highestFirst 24 n =
      highestFirst 6 (n / 262144) ++ (highestFirst 6 (n / 4096 % 64) ++
        (highestFirst 6 (n / 64 % 64) ++ highestFirst 6 (n % 64))) := by
  have hmod : ∀ m, highestFirst 6 (m % 64) = highestFirst 6 m := highestFirst_mod 6
  simp only [hmod]
  have htwo : ∀ m, highestFirst 12 m = highestFirst 6 (m / 64) ++ highestFirst 6 m :=
    highestFirst_add 6 6
  have hthree : ∀ m, highestFirst 18 m = highestFirst 6 (m / 4096) ++ highestFirst 12 m :=
    highestFirst_add 6 12
  have hfour : ∀ m, highestFirst 24 m = highestFirst 6 (m / 262144) ++ highestFirst 18 m :=
    highestFirst_add 6 18
  exact ⟨htwo n, by rw [hthree, htwo], by rw [hfour, hthree, htwo]⟩

/-- Bytes one after the other are the bits of one number. -/
theorem highestFirst_bytes (a b c : UInt8) :
    highestFirst 16 (a.toNat * 256 + b.toNat) =
      highestFirst 8 a.toNat ++ highestFirst 8 b.toNat ∧
    highestFirst 24 ((a.toNat * 256 + b.toNat) * 256 + c.toNat) =
      highestFirst 8 a.toNat ++ (highestFirst 8 b.toNat ++ highestFirst 8 c.toNat) := by
  have hb : highestFirst 16 (a.toNat * 256 + b.toNat) =
      highestFirst 8 a.toNat ++ highestFirst 8 b.toNat := highestFirst_mul_add b.toNat_lt 8 _
  refine ⟨hb, (highestFirst_mul_add (n := 8) c.toNat_lt 16 _).trans ?_⟩
  rw [hb, List.append_assoc]

/-- The digits of a byte string have the bits of its bytes, and fewer than six zeros behind them. -/
theorem bits_digitsOf (bytes : List UInt8) :
    ∃ zeros < 6, (digitsOf bytes).flatMap (highestFirst 6) =
      bitsOf bytes ++ List.replicate zeros false := by
  fun_induction digitsOf bytes with
  | case1 a b c rest n ih =>
    obtain ⟨zeros, hzeros, ih⟩ := ih
    refine ⟨zeros, hzeros, ?_⟩
    have hgroup := (highestFirst_digits n).2.2.symm.trans (highestFirst_bytes a b c).2
    simp only [List.flatMap_cons, bitsOf, List.append_assoc] at ih hgroup ⊢
    rw [ih, ← List.append_assoc, ← List.append_assoc, ← List.append_assoc, List.append_assoc _ _
      (highestFirst 6 (n % 64)), List.append_assoc (highestFirst 6 _), hgroup]
    simp only [List.append_assoc]
  | case2 a b n =>
    have hgroup := (highestFirst_digits n).2.1.symm.trans
      ((highestFirst_mul_add (show 0 < 2 ^ 2 by decide) 16 _).trans
        (congrArg (· ++ _) (highestFirst_bytes a b 0).1))
    refine ⟨2, by decide, ?_⟩
    simpa [bitsOf, highestFirst_zero] using hgroup
  | case3 a =>
    have hgroup := (highestFirst_digits (a.toNat * 16)).1.symm.trans
      (highestFirst_mul_add (show 0 < 2 ^ 4 by decide) 8 a.toNat)
    refine ⟨4, by decide, ?_⟩
    simpa [bitsOf, highestFirst_zero] using hgroup
  | case4 => exact ⟨0, by decide, rfl⟩

theorem isSpelling_encode (bytes : List UInt8) : IsSpelling (encode bytes) bytes := by
  obtain ⟨zeros, hzeros, hbits⟩ := bits_digitsOf bytes
  refine ⟨digitsOf bytes, zeros, hzeros, ?_, hbits⟩
  rw [encode_eq_groups, groups_eq_map, List.map_map]
  exact List.map_congr_left fun digit hdigit => getElem?_alphabet (lt_of_mem_digitsOf digit hdigit)

/-- A byte string has one spelling. -/
theorem IsSpelling.unique {cs cs' : List Char} {bytes : List UInt8} (h : IsSpelling cs bytes)
    (h' : IsSpelling cs' bytes) : cs = cs' := by
  obtain ⟨digits, zeros, hzeros, hchars, hbits⟩ := h
  obtain ⟨digits', zeros', hzeros', hchars', hbits'⟩ := h'
  have hlt : ∀ {ds : List Nat} {cs : List Char}, ds.map (alphabet[·]?) = cs.map some →
      ∀ d ∈ ds, d < 2 ^ 6 := by
    intro ds cs hmap d hd
    obtain ⟨c, -, hc⟩ := List.mem_map.1 (hmap ▸ List.mem_map_of_mem hd)
    exact lt_of_getElem?_alphabet hc.symm
  -- The bits come out even in one way only, so there are as many zeros behind both.
  have hlength : ∀ {ds : List Nat} {n : Nat},
      ds.flatMap (highestFirst 6) = bitsOf bytes ++ List.replicate n false →
      6 * ds.length = (bitsOf bytes).length + n := by
    intro ds n h
    have hl := congrArg List.length h
    rw [List.length_flatMap, List.length_append, List.length_replicate] at hl
    simp only [length_highestFirst, List.map_const', List.sum_replicate, smul_eq_mul] at hl
    omega
  have hsame : zeros = zeros' := by
    have h₁ := hlength hbits
    have h₂ := hlength hbits'
    omega
  subst hsame
  have hdigits : digits = digits' :=
    flatMap_highestFirst_inj (by decide) (hlt hchars) (hlt hchars') (hbits.trans hbits'.symm)
  subst hdigits
  exact List.map_injective_iff.2 (Option.some_injective _) (hchars.symm.trans hchars')

/-- The spelling of bytes by the rule is the one that is written. -/
theorem isSpelling_iff {cs : List Char} {bytes : List UInt8} :
    IsSpelling cs bytes ↔ cs = encode bytes :=
  ⟨fun h => h.unique (isSpelling_encode bytes), fun h => h ▸ isSpelling_encode bytes⟩

/-! ## Canonical characters -/

/-- Characters that are the spelling of something, as can be seen from them alone. -/
structure IsCanonical (cs : List Char) : Prop where
  /-- Each is in the alphabet. -/
  mem_alphabet : ∀ c ∈ cs, c ∈ alphabet
  /-- The last one does not stand alone, for it has not the bits of a byte. -/
  whole : cs.length % 4 ≠ 1
  /-- The bits of the last digit that belong to no byte are zero. -/
  unused : ∀ c ∈ cs.getLast?, ∀ digit, alphabet[digit]? = some c →
    2 ^ (6 * cs.length % 8) ∣ digit

theorem alphabet_inj {digit digit' : Nat} {c : Char} (h : alphabet[digit]? = some c)
    (h' : alphabet[digit']? = some c) : digit = digit' := by
  have hlt := lt_of_getElem?_alphabet h
  have hlt' := lt_of_getElem?_alphabet h'
  rw [getElem?_alphabet hlt, Option.some.injEq] at h
  rw [getElem?_alphabet hlt', Option.some.injEq] at h'
  exact Option.some.inj ((digit?_char hlt).symm.trans (h.trans h'.symm ▸ digit?_char hlt'))

/-- Four characters of the alphabet in front make no difference. -/
theorem isCanonical_group {a b c d : Char} {rest : List Char}
    (h : ∀ x ∈ [a, b, c, d], x ∈ alphabet) :
    IsCanonical (a :: b :: c :: d :: rest) ↔ IsCanonical rest := by
  have hmod : 6 * (a :: b :: c :: d :: rest).length % 8 = 6 * rest.length % 8 := by
    simp only [List.length_cons]
    omega
  have hwhole : (a :: b :: c :: d :: rest).length % 4 = rest.length % 4 := by
    simp only [List.length_cons]
    omega
  constructor
  · rintro ⟨hmem, hcount, hunused⟩
    rw [hmod] at hunused
    refine ⟨fun x hx => hmem x (List.mem_append_right [a, b, c, d] hx), hwhole ▸ hcount,
      fun x hx => hunused x ?_⟩
    cases rest with
    | nil => cases hx
    | cons y rest => simpa [List.getLast?_cons_cons] using hx
  · rintro ⟨hmem, hcount, hunused⟩
    refine ⟨List.forall_mem_append.2 ⟨h, hmem⟩, hwhole ▸ hcount, fun x hx => ?_⟩
    rw [hmod]
    cases rest with
    | nil => exact fun digit _ => one_dvd digit
    | cons y rest => exact hunused x (by simpa [List.getLast?_cons_cons] using hx)

/-- Of a last group of two or three characters, the last decides. -/
theorem isCanonical_last (front : List Char) {c : Char} {digit : Nat}
    (hfront : ∀ x ∈ front, x ∈ alphabet) (hc : alphabet[digit]? = some c)
    (hlength : front.length = 1 ∨ front.length = 2) :
    IsCanonical (front ++ [c]) ↔ 2 ^ (6 * (front.length + 1) % 8) ∣ digit := by
  have hlast : (front ++ [c]).getLast? = some c := List.getLast?_concat
  have hcount : (front ++ [c]).length = front.length + 1 := List.length_append
  constructor
  · intro h
    rw [← hcount]
    exact h.unused c hlast digit hc
  · intro h
    refine ⟨List.forall_mem_append.2 ⟨hfront, ?_⟩, by omega, fun x hx digit' hx' => ?_⟩
    · exact fun x hx => List.mem_singleton.1 hx ▸ List.mem_of_getElem? hc
    · obtain rfl : c = x := Option.some.inj (hlast.symm.trans hx)
      rw [hcount, alphabet_inj hx' hc]
      exact h

/-- Characters spell something just if they are canonical. -/
theorem exists_decodeOnto_iff (done : List UInt8) (cs : List Char) :
    (∃ out, decodeOnto done cs = some out) ↔ IsCanonical cs := by
  have hmem : ∀ {c : Char} {digit : Nat}, digit? c = some digit → c ∈ alphabet :=
    fun h => mem_alphabet_iff.2 ⟨_, h⟩
  have hdigit : ∀ {cs : List Char}, IsCanonical cs → ∀ c ∈ cs, ∃ digit, digit? c = some digit :=
    fun h c hc => mem_alphabet_iff.1 (h.mem_alphabet c hc)
  -- One case for each number of characters of a group and each way in which it is read or not.
  fun_induction decodeOnto done cs with
  | case1 done a b c d rest a' b' c' d' hd hc hb ha n ih =>
    refine ih.trans (isCanonical_group ?_).symm
    simp only [List.forall_mem_cons]
    exact ⟨hmem ha, hmem hb, hmem hc, hmem hd, List.forall_mem_nil _⟩
  | case2 done a b c d rest hnone =>
    refine iff_of_false (by rintro ⟨_, ⟨⟩⟩) fun h => ?_
    obtain ⟨_, ha⟩ := hdigit h a (by simp)
    obtain ⟨_, hb⟩ := hdigit h b (by simp)
    obtain ⟨_, hc⟩ := hdigit h c (by simp)
    obtain ⟨_, hd⟩ := hdigit h d (by simp)
    exact hnone _ _ _ _ ha hb hc hd
  | case3 done a b c a' b' c' hc hb ha n hzero =>
    have hlast := isCanonical_last [a, b]
      (by simp only [List.forall_mem_cons]; exact ⟨hmem ha, hmem hb, List.forall_mem_nil _⟩)
      (getElem?_of_digit? hc) (.inr rfl)
    refine iff_of_true ⟨_, rfl⟩ (hlast.2 ?_)
    have hdvd : 4 ∣ c' := by omega
    simpa using hdvd
  | case4 done a b c a' b' c' hc hb ha n hzero =>
    refine iff_of_false (by rintro ⟨_, ⟨⟩⟩) fun h => hzero ?_
    have hdvd : 4 ∣ c' := by simpa using h.unused c rfl c' (getElem?_of_digit? hc)
    omega
  | case5 done a b c hnone =>
    refine iff_of_false (by rintro ⟨_, ⟨⟩⟩) fun h => ?_
    obtain ⟨_, ha⟩ := hdigit h a (by simp)
    obtain ⟨_, hb⟩ := hdigit h b (by simp)
    obtain ⟨_, hc⟩ := hdigit h c (by simp)
    exact hnone _ _ _ ha hb hc
  | case6 done a b a' b' hb ha n hzero =>
    have hlast := isCanonical_last [a]
      (by simp only [List.forall_mem_cons]; exact ⟨hmem ha, List.forall_mem_nil _⟩)
      (getElem?_of_digit? hb) (.inl rfl)
    refine iff_of_true ⟨_, rfl⟩ (hlast.2 ?_)
    have hdvd : 16 ∣ b' := by omega
    simpa using hdvd
  | case7 done a b a' b' hb ha n hzero =>
    refine iff_of_false (by rintro ⟨_, ⟨⟩⟩) fun h => hzero ?_
    have hdvd : 16 ∣ b' := by simpa using h.unused b rfl b' (getElem?_of_digit? hb)
    omega
  | case8 done a b hnone =>
    refine iff_of_false (by rintro ⟨_, ⟨⟩⟩) fun h => ?_
    obtain ⟨_, ha⟩ := hdigit h a (by simp)
    obtain ⟨_, hb⟩ := hdigit h b (by simp)
    exact hnone _ _ ha hb
  | case9 done c => exact iff_of_false (by rintro ⟨_, ⟨⟩⟩) fun h => h.whole rfl
  | case10 done => exact iff_of_true ⟨_, rfl⟩ ⟨List.forall_mem_nil _, by decide, by rintro _ ⟨⟩⟩

theorem exists_isSpelling_iff {cs : List Char} :
    (∃ bytes, IsSpelling cs bytes) ↔ IsCanonical cs := by
  simp only [isSpelling_iff, ← decode?_eq_some_iff, decode?, Option.map_eq_some_iff]
  rw [← exists_decodeOnto_iff []]
  constructor
  · rintro ⟨_, out, h, -⟩
    exact ⟨out, h⟩
  · rintro ⟨out, h⟩
    exact ⟨_, out, h, rfl⟩

end Base64Url

/-! ## Texts -/

namespace Text

/-- The characters of a text without the ASCII blanks. -/
def solid (text : String) : List Char := text.toList.filter fun c => !isAsciiBlank c

end Text

open Base64Url (IsSpelling IsCanonical)

theorem spells_iff_isSpelling {text : String} {bytes : ByteArray} :
    Spells text bytes ↔ IsSpelling (Text.solid text) bytes.data.toList := by
  rw [Base64Url.isSpelling_iff, Spells, encodeBase64, String.toList_ofList]
  rfl

/-- A text is not read if it is not canonical without its ASCII blanks, and there is one error
    for all of these. -/
theorem decodeBase64_eq_error_iff_not_isCanonical {text : String} {cause : Error} :
    decodeBase64 text = .error cause ↔
      ¬IsCanonical (Text.solid text) ∧ cause = .notBase64 := by
  rw [decodeBase64_eq_error_iff, ← Base64Url.exists_isSpelling_iff]
  simp only [spells_iff_isSpelling, not_exists]
  refine and_congr_left' ⟨fun h bytes hbytes => h bytes.toByteArray ?_, fun h bytes => h _⟩
  rwa [List.toList_data_toByteArray]

/-- A text is read as a byte string just if it is the spelling of it by the rule of base64url,
    apart from the ASCII blanks in it. All other texts are refused with one error, and which they
    are is seen from their characters: one is not in the alphabet, as blanks of other kinds and
    the marks of other kinds of base64 are not; or the last one stands alone; or bits of it are
    set that belong to no byte. So ASCII blanks make no difference, and apart from them each byte
    string has just one spelling that is read. -/
theorem canonical_spellings_are_read :
    (∀ (text : String) (bytes : ByteArray),
      decodeBase64 text = .ok bytes ↔ IsSpelling (Text.solid text) bytes.data.toList) ∧
    (∀ (text : String) (cause : Error),
      decodeBase64 text = .error cause ↔
        ¬IsCanonical (Text.solid text) ∧ cause = .notBase64) ∧
    (∀ (text : String) (c : Char), c ∈ text.toList → c ∉ Base64Url.alphabet →
      ¬Text.isAsciiBlank c → decodeBase64 text = .error .notBase64) ∧
    (∀ c : Char, Text.isBlank c ∨ c ∈ ['+', '/', '='] → c ∉ Base64Url.alphabet) ∧
    (∀ text text' : String, Text.solid text = Text.solid text' →
      decodeBase64 text = decodeBase64 text') ∧
    (∀ bytes : ByteArray, ∃ text : String, decodeBase64 text = .ok bytes ∧
      ∀ text' : String, decodeBase64 text' = .ok bytes ↔ Text.solid text' = Text.solid text) := by
  refine ⟨fun text bytes => decodeBase64_eq_ok_iff.trans spells_iff_isSpelling,
    fun text cause => decodeBase64_eq_error_iff_not_isCanonical, fun text c hc hout hblank => ?_,
    fun c => Base64Url.not_mem_alphabet, fun text text' => decodeBase64_congr, fun bytes => ?_⟩
  · refine decodeBase64_eq_error_iff_not_isCanonical.2 ⟨fun h => hout ?_, rfl⟩
    exact h.mem_alphabet c (List.mem_filter.2 ⟨hc, by simpa using hblank⟩)
  · have hspells := decodeBase64_eq_ok_iff.1 (decodeBase64_encodeBase64 bytes)
    refine ⟨encodeBase64 bytes, decodeBase64_encodeBase64 bytes, fun text' => ?_⟩
    rw [decodeBase64_eq_ok_iff, spells_iff_isSpelling]
    rw [spells_iff_isSpelling] at hspells
    exact ⟨fun h => h.unique hspells, fun h => h ▸ hspells⟩

/-- Three bytes in four characters with a line break and a blank between them, and what comes of
    the plus sign. -/
theorem canonical_spellings_are_read_around_blanks :
    let text := "Zm\n9 v"
    let bytes := [0x66, 0x6F, 0x6F].toByteArray
    decodeBase64 text = .ok bytes ∧
    Text.solid text = Text.solid "Zm9v" ∧
    decodeBase64 text = decodeBase64 "Zm9v" ∧
    '+' ∉ Base64Url.alphabet ∧
    decodeBase64 "Zm9+" = .error .notBase64 := by
  intro text bytes
  obtain ⟨hread, -, hrefused, hout, hblanks, -⟩ := canonical_spellings_are_read
  have hsolid : Text.solid text = Text.solid "Zm9v" := by decide +kernel
  have hspelling : IsSpelling (Text.solid text) bytes.data.toList :=
    ⟨[25, 38, 61, 47], 0, by decide, by decide +kernel, by decide +kernel⟩
  have hplus : '+' ∉ Base64Url.alphabet := hout '+' (.inr (by decide))
  exact ⟨(hread text bytes).2 hspelling, hsolid, hblanks _ _ hsolid, hplus,
    hrefused _ '+' (by decide +kernel) hplus (by decide)⟩

end StatusList
