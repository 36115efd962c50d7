import StatusList.Proofs.Text.Utf8
import StatusList.Url.Path

/-!
# Percent encoding

What is encoded holds none of the characters that may not stand there, if none of them is a
percent sign or a digit (`not_mem_encode`). Where percent signs are encoded, a text can be
read off its encoded form from the left (`encode_eq_cons`), and since a dot is never
encoded, no dot hides in there either: only one dot stays where it is and only two dots go
back (`staysHere_encode`, `goesBack_encode`). Nothing is lost by it (`decode_encode`).
-/

namespace StatusList.Url

/-! ## Digits -/

theorem upperHex_ne_percent {n : Nat} (h : n < 16) : upperHex n ≠ '%' := by
  decide +revert

theorem isAlphanum_upperHex {n : Nat} (h : n < 16) : (upperHex n).isAlphanum = true := by
  decide +revert

theorem eq_two_of_upperHex {n : Nat} (h : n < 16) (hn : upperHex n = '2') : n = 2 := by
  decide +revert

theorem eq_fourteen_of_upperHex {n : Nat} (h : n < 16)
    (hn : upperHex n = 'e' ∨ upperHex n = 'E') : n = 14 := by
  decide +revert

/-- The digits of a byte. -/
theorem digits_lt (b : UInt8) : b.toNat / 16 < 16 ∧ b.toNat % 16 < 16 := by
  have hb := b.toNat_lt
  omega

/-! ## Dots -/

theorem plainDots_cons {c : Char} (h : c ≠ '%') (rest : List Char) :
    plainDots (c :: rest) = c :: plainDots rest := by
  rw [plainDots.eq_def]
  split <;> grind

theorem plainDots_percent {a b : Char} (h : ¬(a = '2' ∧ (b = 'e' ∨ b = 'E'))) (rest : List Char) :
    plainDots ('%' :: a :: b :: rest) = '%' :: plainDots (a :: b :: rest) := by
  rw [plainDots.eq_def]
  split <;> grind

/-- No byte but that of a dot is taken for an encoded dot. -/
theorem plainDots_encodeByte {b : UInt8} (h : b ≠ 46) (rest : List Char) :
    plainDots (encodeByte b ++ rest) = encodeByte b ++ plainDots rest := by
  obtain ⟨hhigh, hlow⟩ := digits_lt b
  have hdot : ¬(upperHex (b.toNat / 16) = '2' ∧
      (upperHex (b.toNat % 16) = 'e' ∨ upperHex (b.toNat % 16) = 'E')) := by
    rintro ⟨htwo, hfourteen⟩
    have hdiv := eq_two_of_upperHex hhigh htwo
    have hmod := eq_fourteen_of_upperHex hlow hfourteen
    exact h (UInt8.toNat_inj.1 (show b.toNat = 46 by omega))
  simp only [encodeByte, List.cons_append, List.nil_append]
  rw [plainDots_percent hdot, plainDots_cons (upperHex_ne_percent hhigh),
    plainDots_cons (upperHex_ne_percent hlow)]

theorem plainDots_encodeBytes {bytes : List UInt8} (h : 46 ∉ bytes) (rest : List Char) :
    plainDots (bytes.flatMap encodeByte ++ rest) = bytes.flatMap encodeByte ++ plainDots rest := by
  induction bytes with
  | nil => rfl
  | cons b bytes ih =>
    obtain ⟨hb, hbytes⟩ := List.ne_and_not_mem_of_not_mem_cons h
    rw [List.flatMap_cons, List.append_assoc, plainDots_encodeByte (Ne.symm hb), ih hbytes,
      List.append_assoc]

/-- The UTF-8 of a character other than a dot does not have the byte of a dot. -/
theorem dot_not_mem_utf8EncodeChar {c : Char} (h : c ≠ '.') : 46 ∉ String.utf8EncodeChar c := by
  by_cases hc : c.toNat < 128
  · rw [Utf8.utf8EncodeChar_of_lt hc, List.mem_singleton]
    intro hdot
    have hnat : c.toNat = 46 := by
      rw [← Utf8.toNat_ofNat_of_lt (show c.toNat < 256 by omega)]
      exact congrArg UInt8.toNat hdot.symm
    exact h (Char.toNat_inj.1 hnat)
  · intro hmem
    exact absurd (Utf8.le_of_mem_utf8EncodeChar (Nat.le_of_not_lt hc) hmem) (by decide)

section

variable {set : EncodeSet}

/-- A character stands as it is, or it is a run of encoded bytes. -/
theorem encodeChar_cases (set : EncodeSet) (c : Char) :
    (set c = false ∧ encodeChar set c = [c]) ∨
      encodeChar set c = (String.utf8EncodeChar c).flatMap encodeByte := by
  rw [encodeChar]
  split
  · next h => exact .inl ⟨by simpa using h.2, rfl⟩
  · exact .inr rfl

/-- A dot that is not to be encoded stands as it is. -/
theorem encodeChar_dot (h : set '.' = false) : encodeChar set '.' = ['.'] := by
  simp [encodeChar, h]

/-- There are no encoded dots in what is encoded, if percent signs are. -/
theorem plainDots_encode (hpercent : set '%' = true) (hdot : set '.' = false) (text : List Char) :
    plainDots (encode set text) = encode set text := by
  -- Every percent sign in what is encoded begins a byte, and no byte of another character is
  -- that of a dot. So a character at a time can be taken off in front.
  induction text with
  | nil => rfl
  | cons c text ih =>
    rw [encode, List.flatMap_cons]
    obtain ⟨hc, hplain⟩ | hbytes := encodeChar_cases set c
    · have hne : c ≠ '%' := by
        rintro rfl
        rw [hpercent] at hc
        cases hc
      rw [hplain, List.singleton_append, plainDots_cons hne]
      exact congrArg (c :: ·) ih
    · by_cases hc : c = '.'
      · rw [hc, encodeChar_dot hdot, List.singleton_append, plainDots_cons (by decide)]
        exact congrArg ('.' :: ·) ih
      · rw [hbytes, plainDots_encodeBytes (dot_not_mem_utf8EncodeChar hc)]
        exact congrArg _ ih

/-- A character stands as it is, or a percent sign stands first in its place. -/
theorem encodeChar_eq_or (set : EncodeSet) (c : Char) :
    encodeChar set c = [c] ∨ ∃ rest, encodeChar set c = '%' :: rest := by
  obtain ⟨-, hplain⟩ | hbytes := encodeChar_cases set c
  · exact .inl hplain
  · obtain ⟨b, bytes, hchar⟩ := List.exists_cons_of_ne_nil String.utf8EncodeChar_ne_nil
    rw [hchar, List.flatMap_cons, encodeByte, List.cons_append] at hbytes
    exact .inr ⟨_, hbytes⟩

/-- What begins with a character other than a percent sign begins with it in plain. -/
theorem encode_eq_cons {d : Char} (hd : d ≠ '%') {text rest : List Char}
    (h : encode set text = d :: rest) : ∃ text', text = d :: text' ∧ encode set text' = rest := by
  cases text with
  | nil => cases h
  | cons c text =>
    rw [encode, List.flatMap_cons] at h
    obtain hplain | ⟨more, hmore⟩ := encodeChar_eq_or set c
    · rw [hplain, List.singleton_append, List.cons.injEq] at h
      exact ⟨text, by rw [h.1], h.2⟩
    · rw [hmore, List.cons_append] at h
      exact absurd (List.cons.inj h).1.symm hd

theorem eq_nil_of_encode {text : List Char} (h : encode set text = []) : text = [] := by
  cases text with
  | nil => rfl
  | cons c text =>
    rw [encode, List.flatMap_cons, List.append_eq_nil_iff] at h
    obtain hplain | ⟨more, hmore⟩ := encodeChar_eq_or set c
    · rw [hplain] at h
      cases h.1
    · rw [hmore] at h
      cases h.1

/-- Only one dot is encoded as a segment that stays where it is. -/
theorem staysHere_encode (hpercent : set '%' = true) (hdot : set '.' = false)
    {text : List Char} : staysHere (encode set text) = true ↔ text = ['.'] := by
  rw [staysHere, decide_eq_true_iff, plainDots_encode hpercent hdot]
  constructor
  · intro h
    obtain ⟨text, rfl, hrest⟩ := encode_eq_cons (by decide) h
    rw [eq_nil_of_encode hrest]
  · rintro rfl
    simp [encode, encodeChar_dot hdot]

/-- Only two dots are encoded as a segment that goes back. -/
theorem goesBack_encode (hpercent : set '%' = true) (hdot : set '.' = false)
    {text : List Char} : goesBack (encode set text) = true ↔ text = ['.', '.'] := by
  rw [goesBack, decide_eq_true_iff, plainDots_encode hpercent hdot]
  constructor
  · intro h
    obtain ⟨text, rfl, hnext⟩ := encode_eq_cons (by decide) h
    obtain ⟨text, rfl, hrest⟩ := encode_eq_cons (by decide) hnext
    rw [eq_nil_of_encode hrest]
  · rintro rfl
    rw [encode, List.flatMap_cons, List.flatMap_cons, encodeChar_dot hdot]
    rfl

/-- A character that is to be encoded does not stand in an encoded text, unless encoding
    puts it there. -/
theorem not_mem_encode {c : Char} (hset : set c = true) (hpercent : c ≠ '%')
    (hdigit : c.isAlphanum = false) (text : List Char) : c ∉ encode set text := by
  intro hmem
  have hhex : ∀ n < 16, c ≠ upperHex n := by
    rintro n hn rfl
    rw [isAlphanum_upperHex hn] at hdigit
    cases hdigit
  obtain ⟨d, -, hd⟩ := List.mem_flatMap.1 hmem
  obtain ⟨hplain, heq⟩ | hbytes := encodeChar_cases set d
  · rw [heq, List.mem_singleton] at hd
    rw [← hd, hset] at hplain
    cases hplain
  · rw [hbytes] at hd
    obtain ⟨b, -, hb⟩ := List.mem_flatMap.1 hd
    simp only [encodeByte, List.mem_cons, List.not_mem_nil, or_false] at hb
    obtain ⟨hhigh, hlow⟩ := digits_lt b
    rcases hb with h | h | h
    · exact hpercent h
    · exact hhex _ hhigh h
    · exact hhex _ hlow h

end

/-! ## Encoded bytes -/

/-- The byte of a digit in base sixteen. -/
def hexByte (n : Nat) : UInt8 := (upperHex n).toNat.toUInt8

theorem encode_upperHex {n : Nat} (h : n < 16) (cs : List Char) :
    Utf8.encode (upperHex n :: cs) = hexByte n :: Utf8.encode cs := by
  have hascii : ∀ n < 16, (upperHex n).toNat < 128 := by decide
  rw [Utf8.encode_cons, Utf8.utf8EncodeChar_of_lt (hascii n h)]
  rfl

theorem hexValue?_hexByte {n : Nat} (h : n < 16) : hexValue? (hexByte n) = some n := by
  decide +revert

theorem encode_encodeByte (b : UInt8) :
    Utf8.encode (encodeByte b) = [37, hexByte (b.toNat / 16), hexByte (b.toNat % 16)] := by
  have hpercent : String.utf8EncodeChar '%' = [37] := by decide
  obtain ⟨hhigh, hlow⟩ := digits_lt b
  rw [encodeByte, Utf8.encode_cons, hpercent, encode_upperHex hhigh, encode_upperHex hlow,
    Utf8.encode_nil, List.singleton_append]

theorem decodeOnto_of_ne {b : UInt8} (h : b ≠ 37) (done rest : List UInt8) :
    decodeOnto done (b :: rest) = decodeOnto (b :: done) rest := by
  rw [decodeOnto.eq_def]
  split <;> grind

/-- An encoded byte is read off the front. -/
theorem decodeOnto_encodeByte (b : UInt8) (done rest : List UInt8) :
    decodeOnto done (37 :: hexByte (b.toNat / 16) :: hexByte (b.toNat % 16) :: rest) =
      decodeOnto (b :: done) rest := by
  obtain ⟨hhigh, hlow⟩ := digits_lt b
  have hbyte : (b.toNat / 16 * 16 + b.toNat % 16).toUInt8 = b := by
    rw [Nat.div_add_mod']
    exact UInt8.ofNat_toNat
  rw [decodeOnto, hexValue?_hexByte hhigh, hexValue?_hexByte hlow]
  simp only [hbyte]

theorem decodeOnto_flatMap_encodeByte (bytes done rest : List UInt8) :
    decodeOnto done (Utf8.encode (bytes.flatMap encodeByte) ++ rest) =
      decodeOnto (bytes.reverse ++ done) rest := by
  induction bytes generalizing done with
  | nil => rfl
  | cons b bytes ih =>
    simp only [List.flatMap_cons, Utf8.encode_append, encode_encodeByte, List.cons_append,
      List.nil_append]
    rw [decodeOnto_encodeByte, ih, List.reverse_cons, List.append_assoc, List.singleton_append]

/-- A character is read off the front of what is encoded of it, if percent signs are encoded. -/
theorem decodeOnto_encodeChar {set : EncodeSet} (hpercent : set '%' = true) (c : Char)
    (done rest : List UInt8) :
    decodeOnto done (Utf8.encode (encodeChar set c) ++ rest) =
      decodeOnto ((String.utf8EncodeChar c).reverse ++ done) rest := by
  rw [encodeChar]
  split
  · next h =>
    obtain ⟨hascii, hset⟩ := h
    have hne : c ≠ '%' := by
      rintro rfl
      rw [hpercent] at hset
      cases hset
    have hbyte : UInt8.ofNat c.toNat ≠ 37 := by
      intro heq
      have hnat := congrArg UInt8.toNat heq
      rw [Utf8.toNat_ofNat_of_lt (by omega)] at hnat
      exact hne (Char.toNat_inj.1 hnat)
    rw [Utf8.encode_cons, Utf8.encode_nil, Utf8.utf8EncodeChar_of_lt hascii]
    exact decodeOnto_of_ne hbyte done rest
  · exact decodeOnto_flatMap_encodeByte _ done rest

/-- What is encoded is decoded again, if percent signs are encoded. -/
theorem decode_encode {set : EncodeSet} (hpercent : set '%' = true) (text : List Char) :
    decode (Utf8.encode (encode set text)) = Utf8.encode text := by
  have honto : ∀ done, decodeOnto done (Utf8.encode (encode set text)) =
      done.reverse ++ Utf8.encode text := by
    induction text with
    | nil =>
      intro done
      exact (List.append_nil _).symm
    | cons c text ih =>
      intro done
      rw [encode, List.flatMap_cons, Utf8.encode_append, decodeOnto_encodeChar hpercent]
      refine (ih _).trans ?_
      rw [List.reverse_append, List.reverse_reverse, List.append_assoc, Utf8.encode_cons]
  exact honto []

end StatusList.Url
