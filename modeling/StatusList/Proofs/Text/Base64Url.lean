import StatusList.Encoded
import StatusList.Proofs.Basic

/-!
# Base64url round trip

What is spelled is read back (`decode?_encode`), also if ASCII blanks have been put
between the characters (`decodeBase64_of_filter`), and nothing is read that is not spelled
(`decodeBase64_eq_ok_iff`).

The writer keeps the characters so far with the latest first. The proofs go over the
spelling as it reads from the left (`groups`), three bytes at a time.

* `exists_digit_of_mem`: every character of a spelling is that of a digit, so it is none
  of the characters that mean something around a spelling (`isBlank_char`, `char_ne`).
-/

namespace StatusList

namespace Base64Url

open Text

/-! ## Characters -/

/-- No digit is a blank. -/
theorem isBlank_char {digit : Nat} (h : digit < 64) : isBlank (char digit) = false := by
  decide +revert

theorem isAsciiBlank_char {digit : Nat} (h : digit < 64) : isAsciiBlank (char digit) = false := by
  decide +revert

/-- No digit is a dot or an opening brace. -/
theorem char_ne {digit : Nat} (h : digit < 64) : char digit ≠ '.' ∧ char digit ≠ '\x7b' := by
  decide +revert

/-- A character of which there is a digit is the character of that digit. -/
theorem eq_char_of_digit? {c : Char} {digit : Nat} (h : digit? c = some digit) :
    digit < 64 ∧ c = char digit := by
  have hbetween : ∀ low high : Char, low ≤ c ∧ c ≤ high →
      low.toNat ≤ c.toNat ∧ c.toNat ≤ high.toNat := fun _ _ => id
  have hback : ∀ low : Char, low.toNat ≤ c.toNat →
      c = .ofNat (low.toNat + (c.toNat - low.toNat)) := fun low hlow => by
    rw [Nat.add_sub_cancel' hlow, Char.ofNat_toNat]
  have hends : 'A'.toNat = 65 ∧ 'Z'.toNat = 90 ∧ 'a'.toNat = 97 ∧ 'z'.toNat = 122 ∧
      '0'.toNat = 48 ∧ '9'.toNat = 57 := by decide
  unfold digit? at h
  split_ifs at h with hupper hlower hnumber hminus hline
  all_goals obtain rfl := Option.some.inj h
  · have hc := hbetween _ _ hupper
    refine ⟨by omega, ?_⟩
    rw [char, if_pos (by omega)]
    exact hback 'A' hc.1
  · have hc := hbetween _ _ hlower
    refine ⟨by omega, ?_⟩
    rw [char, if_neg (by omega), if_pos (by omega), Nat.add_sub_cancel]
    exact hback 'a' hc.1
  · have hc := hbetween _ _ hnumber
    refine ⟨by omega, ?_⟩
    rw [char, if_neg (by omega), if_neg (by omega), if_pos (by omega), Nat.add_sub_cancel]
    exact hback '0' hc.1
  · exact ⟨by decide, hminus⟩
  · exact ⟨by decide, hline⟩

/-! ## Groups -/

/-- The spelling of a byte string, from the left. -/
def groups : List UInt8 → List Char
  | a :: b :: c :: rest =>
    let n := (a.toNat * 256 + b.toNat) * 256 + c.toNat
    char (n / 262144) :: char (n / 4096 % 64) :: char (n / 64 % 64) :: char (n % 64) :: groups rest
  | [a, b] =>
    let n := (a.toNat * 256 + b.toNat) * 4
    [char (n / 4096), char (n / 64 % 64), char (n % 64)]
  | [a] => [char (a.toNat * 16 / 64), char (a.toNat * 16 % 64)]
  | [] => []

theorem encodeOnto_eq (done : List Char) (bytes : List UInt8) :
    encodeOnto done bytes = (groups bytes).reverse ++ done := by
  fun_induction encodeOnto done bytes with
  | case1 done a b c rest n ih =>
    rw [ih]
    simp only [groups, List.reverse_cons, List.append_assoc, List.cons_append, List.nil_append, n]
  | case2 => rfl
  | case3 => rfl
  | case4 => rfl

theorem encode_eq_groups (bytes : List UInt8) : encode bytes = groups bytes := by
  rw [encode, encodeOnto_eq, List.append_nil, List.reverse_reverse]

/-- Every character of a spelling is that of a digit. -/
theorem exists_digit_of_mem {bytes : List UInt8} {c : Char} (h : c ∈ encode bytes) :
    ∃ digit < 64, c = char digit := by
  rw [encode_eq_groups] at h
  fun_induction groups bytes with
  | case1 x y z rest n ih =>
    have hx := x.toNat_lt
    have hy := y.toNat_lt
    have hz := z.toNat_lt
    simp only [List.mem_cons] at h
    rcases h with rfl | rfl | rfl | rfl | h
    · exact ⟨_, by omega, rfl⟩
    · exact ⟨_, Nat.mod_lt _ (by decide), rfl⟩
    · exact ⟨_, Nat.mod_lt _ (by decide), rfl⟩
    · exact ⟨_, Nat.mod_lt _ (by decide), rfl⟩
    · exact ih h
  | case2 x y n =>
    have hx := x.toNat_lt
    have hy := y.toNat_lt
    simp only [List.mem_cons, List.not_mem_nil, or_false] at h
    rcases h with rfl | rfl | rfl
    · exact ⟨_, by omega, rfl⟩
    · exact ⟨_, Nat.mod_lt _ (by decide), rfl⟩
    · exact ⟨_, Nat.mod_lt _ (by decide), rfl⟩
  | case3 x =>
    have hx := x.toNat_lt
    simp only [List.mem_cons, List.not_mem_nil, or_false] at h
    rcases h with rfl | rfl
    · exact ⟨_, by omega, rfl⟩
    · exact ⟨_, Nat.mod_lt _ (by decide), rfl⟩
  | case4 => exact absurd h (List.not_mem_nil)

/-! ## Reading back -/

/-- A byte is what is left of any number that ends in it. -/
theorem toUInt8_of_mod {n : Nat} {b : UInt8} (h : n % 256 = b.toNat) : n.toUInt8 = b := by
  apply UInt8.toNat_inj.1
  rw [Nat.toUInt8_eq, UInt8.toNat_ofNat']
  exact h

theorem decodeOnto_groups (done bytes : List UInt8) :
    decodeOnto done (groups bytes) = some (bytes.reverse ++ done) := by
  fun_induction groups bytes generalizing done with
  | case1 a b c rest n ih =>
    have ha := a.toNat_lt
    have hb := b.toNat_lt
    have hc := c.toNat_lt
    have hn : ((n / 262144 * 64 + n / 4096 % 64) * 64 + n / 64 % 64) * 64 + n % 64 = n := by omega
    rw [decodeOnto, digit?_char (by omega), digit?_char (Nat.mod_lt _ (by decide)),
      digit?_char (Nat.mod_lt _ (by decide)), digit?_char (Nat.mod_lt _ (by decide))]
    simp only [hn]
    rw [ih, toUInt8_of_mod (b := c) (by omega), toUInt8_of_mod (b := b) (by omega),
      toUInt8_of_mod (b := a) (by omega)]
    simp only [List.reverse_cons, List.append_assoc, List.cons_append, List.nil_append]
  | case2 a b n =>
    have ha := a.toNat_lt
    have hb := b.toNat_lt
    have hn : (n / 4096 * 64 + n / 64 % 64) * 64 + n % 64 = n := by omega
    rw [decodeOnto, digit?_char (by omega), digit?_char (Nat.mod_lt _ (by decide)),
      digit?_char (Nat.mod_lt _ (by decide))]
    simp only [hn]
    rw [if_pos (by omega), toUInt8_of_mod (b := b) (by omega), toUInt8_of_mod (b := a) (by omega)]
    rfl
  | case3 a =>
    have ha := a.toNat_lt
    have hn : a.toNat * 16 / 64 * 64 + a.toNat * 16 % 64 = a.toNat * 16 := by omega
    rw [decodeOnto, digit?_char (by omega), digit?_char (Nat.mod_lt _ (by decide))]
    simp only [hn]
    rw [if_pos (by omega), toUInt8_of_mod (b := a) (by omega)]
    rfl
  | case4 => rfl

/-- What is spelled is read back. -/
theorem decode?_encode (bytes : List UInt8) : decode? (encode bytes) = some bytes := by
  rw [decode?, encode_eq_groups, decodeOnto_groups, List.append_nil, Option.map_some,
    List.reverse_reverse]

/-- Only digits are read. -/
theorem exists_digit_of_decodeOnto {done bytes : List UInt8} {cs : List Char}
    (h : decodeOnto done cs = some bytes) : ∀ x ∈ cs, ∃ digit, digit? x = some digit := by
  fun_induction decodeOnto done cs with
  | case1 done a b c d rest a' b' c' d' hd hc hb ha n ih =>
    simp only [List.forall_mem_cons]
    exact ⟨⟨_, ha⟩, ⟨_, hb⟩, ⟨_, hc⟩, ⟨_, hd⟩, ih h⟩
  | case3 done a b c a' b' c' hc hb ha =>
    simp only [List.forall_mem_cons]
    exact ⟨⟨_, ha⟩, ⟨_, hb⟩, ⟨_, hc⟩, List.forall_mem_nil _⟩
  | case6 done a b a' b' hb ha =>
    simp only [List.forall_mem_cons]
    exact ⟨⟨_, ha⟩, ⟨_, hb⟩, List.forall_mem_nil _⟩
  | case10 => exact List.forall_mem_nil _
  | case2 | case4 | case5 | case7 | case8 | case9 => cases h

theorem toNat_toUInt8 (n : Nat) : n.toUInt8.toNat = n % 256 := by
  rw [Nat.toUInt8_eq, UInt8.toNat_ofNat']

/-- What is read is what the groups of the bytes that come of it spell. -/
theorem exists_groups_of_decodeOnto {done out : List UInt8} {cs : List Char}
    (h : decodeOnto done cs = some out) :
    ∃ bytes, out = bytes.reverse ++ done ∧ cs = groups bytes := by
  -- The digits of a group are found again in the number that they make, so its bytes spell
  -- the group: none of the bits that belong to no byte is set.
  fun_induction decodeOnto done cs with
  | case1 done a b c d rest a' b' c' d' hd hc hb ha n ih =>
    obtain ⟨bytes, rfl, rfl⟩ := ih h
    obtain ⟨ha', rfl⟩ := eq_char_of_digit? ha
    obtain ⟨hb', rfl⟩ := eq_char_of_digit? hb
    obtain ⟨hc', rfl⟩ := eq_char_of_digit? hc
    obtain ⟨hd', rfl⟩ := eq_char_of_digit? hd
    have hn : (n / 65536 % 256 * 256 + n / 256 % 256) * 256 + n % 256 = n := by omega
    have hdigits : n / 262144 = a' ∧ n / 4096 % 64 = b' ∧ n / 64 % 64 = c' ∧ n % 64 = d' := by
      omega
    refine ⟨(n / 65536).toUInt8 :: (n / 256).toUInt8 :: n.toUInt8 :: bytes, by simp, ?_⟩
    simp only [groups, toNat_toUInt8, hn, hdigits]
  | case3 done a b c a' b' c' hc hb ha n hzero =>
    obtain rfl := Option.some.inj h
    obtain ⟨ha', rfl⟩ := eq_char_of_digit? ha
    obtain ⟨hb', rfl⟩ := eq_char_of_digit? hb
    obtain ⟨hc', rfl⟩ := eq_char_of_digit? hc
    have hn : (n / 1024 % 256 * 256 + n / 4 % 256) * 4 = n := by omega
    have hdigits : n / 4096 = a' ∧ n / 64 % 64 = b' ∧ n % 64 = c' := by omega
    refine ⟨[(n / 1024).toUInt8, (n / 4).toUInt8], rfl, ?_⟩
    simp only [groups, toNat_toUInt8, hn, hdigits]
  | case6 done a b a' b' hb ha n hzero =>
    obtain rfl := Option.some.inj h
    obtain ⟨ha', rfl⟩ := eq_char_of_digit? ha
    obtain ⟨hb', rfl⟩ := eq_char_of_digit? hb
    have hn : n / 16 % 256 * 16 = n := by omega
    have hdigits : n / 64 = a' ∧ n % 64 = b' := by omega
    refine ⟨[(n / 16).toUInt8], rfl, ?_⟩
    simp only [groups, toNat_toUInt8, hn, hdigits]
  | case10 done => exact ⟨[], (Option.some.inj h).symm, rfl⟩
  | case2 | case4 | case5 | case7 | case8 | case9 => cases h

/-- What is read as a byte string is the spelling of it. -/
theorem decode?_eq_some_iff {cs : List Char} {bytes : List UInt8} :
    decode? cs = some bytes ↔ cs = encode bytes := by
  refine ⟨fun h => ?_, fun h => h ▸ decode?_encode bytes⟩
  obtain ⟨out, hout, rfl⟩ := Option.map_eq_some_iff.1 h
  obtain ⟨spelled, rfl, rfl⟩ := exists_groups_of_decodeOnto hout
  rw [List.append_nil, List.reverse_reverse, encode_eq_groups]

end Base64Url

/-! ## Texts -/

/-- How a text is read does not depend on the ASCII blanks in it. -/
theorem decodeBase64_congr {text text' : String}
    (h : text.toList.filter (fun c => !Text.isAsciiBlank c) =
      text'.toList.filter (fun c => !Text.isAsciiBlank c)) :
    decodeBase64 text = decodeBase64 text' := by
  rw [decodeBase64, decodeBase64, h]

/-- A text that is read has digits and ASCII blanks in it, and nothing else. -/
theorem exists_digit_of_decodeBase64 {text : String} {bytes : ByteArray}
    (h : decodeBase64 text = .ok bytes) {c : Char} (hc : c ∈ text.toList) :
    Text.isAsciiBlank c = true ∨ ∃ digit < 64, c = Base64Url.char digit := by
  by_cases hblank : Text.isAsciiBlank c = true
  · exact .inl hblank
  · have hkept : c ∈ text.toList.filter fun c => !Text.isAsciiBlank c :=
      List.mem_filter.2 ⟨hc, by simpa using hblank⟩
    rw [decodeBase64] at h
    split at h
    · next spelled hspelled =>
      obtain ⟨onto, honto, -⟩ := Option.map_eq_some_iff.1 hspelled
      obtain ⟨digit, hdigit⟩ := Base64Url.exists_digit_of_decodeOnto honto c hkept
      exact .inr ⟨digit, Base64Url.eq_char_of_digit? hdigit⟩
    · cases h

/-- A spelling is read back if ASCII blanks have been put into it. -/
theorem decodeBase64_of_filter {text : String} {bytes : ByteArray}
    (h : text.toList.filter (fun c => !Text.isAsciiBlank c) = (encodeBase64 bytes).toList) :
    decodeBase64 text = .ok bytes := by
  have hspelled : (encodeBase64 bytes).toList = Base64Url.encode bytes.data.toList :=
    String.toList_ofList
  rw [decodeBase64, h, hspelled, Base64Url.decode?_encode]
  exact congrArg Except.ok (toByteArray_toList bytes)

/-- Without its ASCII blanks a text is the spelling of a byte string. -/
def Spells (text : String) (bytes : ByteArray) : Prop :=
  text.toList.filter (fun c => !Text.isAsciiBlank c) = (encodeBase64 bytes).toList

/-- A text is read as the byte string that it spells, and no other text is read. -/
theorem decodeBase64_eq_ok_iff {text : String} {bytes : ByteArray} :
    decodeBase64 text = .ok bytes ↔ Spells text bytes := by
  refine ⟨fun h => ?_, decodeBase64_of_filter⟩
  rw [decodeBase64] at h
  split at h
  · next spelled hspelled =>
    rw [Base64Url.decode?_eq_some_iff] at hspelled
    rw [Spells, hspelled, encodeBase64, String.toList_ofList, ← Except.ok.inj h]
    exact congrArg Base64Url.encode List.toList_data_toByteArray.symm
  · cases h

theorem decodeBase64_eq_error_iff {text : String} {cause : Error} :
    decodeBase64 text = .error cause ↔ (∀ bytes, ¬Spells text bytes) ∧ cause = .notBase64 := by
  simp only [← decodeBase64_eq_ok_iff]
  rw [decodeBase64]
  cases Base64Url.decode? (text.toList.filter fun c => !Text.isAsciiBlank c) <;> simp [eq_comm]

theorem decodeBase64_encodeBase64 (bytes : ByteArray) :
    decodeBase64 (encodeBase64 bytes) = .ok bytes := by
  refine decodeBase64_of_filter (List.filter_eq_self.2 fun c hc => ?_)
  rw [encodeBase64, String.toList_ofList] at hc
  obtain ⟨digit, hdigit, rfl⟩ := Base64Url.exists_digit_of_mem hc
  rw [Base64Url.isAsciiBlank_char hdigit]
  rfl

end StatusList
