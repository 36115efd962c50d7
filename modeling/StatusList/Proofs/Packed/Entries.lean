import StatusList.Packed
import StatusList.Proofs.LittleEndian

/-!
# The entries of a packed list

The entry at an index is a digit of the number of the bytes: in base `2 ^ w` for
entries of `w` bits (`toNat_entry`). Writing an entry changes the bits of that digit
and no other (`testBit_put`), although it rewrites a whole byte. So the list of all
entries follows the plain rule of a list (`toList_put`), and it tells packed lists of
one width apart (`eq_iff_toList`).
-/

namespace StatusList

namespace Packed

/-! ## One byte -/

theorem mask_eq (w : Width) : w.mask.toNat = 2 ^ w.bits - 1 := by cases w <;> rfl

theorem le_mask_iff {w : Width} {value : UInt8} : value ≤ w.mask ↔ value.toNat < 2 ^ w.bits := by
  have := Nat.two_pow_pos w.bits
  rw [UInt8.le_iff_toNat_le, mask_eq]
  omega

theorem toNat_toUInt8_of_lt {n : Nat} (h : n < 8) : n.toUInt8.toNat % 8 = n := by
  rw [Nat.toUInt8_eq, UInt8.toNat_ofNat']
  omega

theorem testBit_field {w : Width} {shift : Nat} (hs : shift < 8) (byte : UInt8) (t : Nat) :
    (field w byte shift).toNat.testBit t =
      (byte.toNat.testBit (shift + t) && decide (t < w.bits)) := by
  rw [field, UInt8.toNat_and, UInt8.toNat_shiftRight, toNat_toUInt8_of_lt hs, mask_eq,
    Nat.testBit_and, Nat.testBit_shiftRight, Nat.testBit_two_pow_sub_one]

theorem testBit_not (byte : UInt8) (k : Nat) :
    (~~~byte).toNat.testBit k = (decide (k < 8) && !byte.toNat.testBit k) := by
  have h := BitVec.getLsbD_not (x := byte.toBitVec) (i := k)
  simpa [BitVec.getLsbD] using h

theorem testBit_shiftLeft {shift : Nat} (hs : shift < 8) (byte : UInt8) (k : Nat) :
    (byte <<< shift.toUInt8).toNat.testBit k =
      (decide (k < 8) && (decide (shift ≤ k) && byte.toNat.testBit (k - shift))) := by
  rw [UInt8.toNat_shiftLeft, toNat_toUInt8_of_lt hs, Nat.testBit_mod_two_pow, Nat.testBit_shiftLeft]

/-- A value that fits into an entry loses no bit where it is moved up to one. -/
theorem toNat_shiftLeft_of_le_mask {w : Width} {shift : Nat} (hs : shift + w.bits ≤ 8)
    {value : UInt8} (hv : value ≤ w.mask) :
    (value <<< shift.toUInt8).toNat = value.toNat * 2 ^ shift := by
  have hbits := w.bits_pos
  have hlt : value.toNat * 2 ^ shift < 2 ^ 8 := by
    calc value.toNat * 2 ^ shift
      _ < 2 ^ w.bits * 2 ^ shift :=
        Nat.mul_lt_mul_of_pos_right (le_mask_iff.1 hv) (Nat.two_pow_pos _)
      _ = 2 ^ (shift + w.bits) := by rw [Nat.pow_add, Nat.mul_comm]
      _ ≤ 2 ^ 8 := Nat.pow_le_pow_right (by decide) hs
  rw [UInt8.toNat_shiftLeft, toNat_toUInt8_of_lt (by omega), Nat.shiftLeft_eq,
    Nat.mod_eq_of_lt hlt]

/-- Writing an entry of a byte replaces the bits of the entry and keeps all others. -/
theorem testBit_putField {w : Width} {shift : Nat} (hs : shift + w.bits ≤ 8) {value : UInt8}
    (hv : value ≤ w.mask) (byte : UInt8) (k : Nat) :
    (putField w byte shift value).toNat.testBit k =
      if shift ≤ k ∧ k < shift + w.bits then value.toNat.testBit (k - shift)
      else byte.toNat.testBit k := by
  have hs' : shift < 8 := by have := w.bits_pos; omega
  rw [putField, UInt8.toNat_or, UInt8.toNat_and, Nat.testBit_or, Nat.testBit_and, testBit_not,
    testBit_shiftLeft hs', testBit_shiftLeft hs', mask_eq, Nat.testBit_two_pow_sub_one]
  by_cases hk : k < 8
  · by_cases hle : shift ≤ k
    · by_cases hlt : k < shift + w.bits
      · simp [hk, hle, hlt, show k - shift < w.bits by omega]
      · -- Above the entry, the value has no bits.
        have hvalue : value.toNat.testBit (k - shift) = false :=
          Nat.testBit_lt_two_pow ((le_mask_iff.1 hv).trans_le
            (Nat.pow_le_pow_right (by decide) (by omega)))
        simp [hk, hle, hlt, hvalue, show ¬k - shift < w.bits by omega]
    · simp [hk, hle]
  · have hbyte : byte.toNat.testBit k = false :=
      Nat.testBit_lt_two_pow (byte.toNat_lt.trans_le (Nat.pow_le_pow_right (by decide) (by omega)))
    rw [if_neg (by omega), hbyte]
    simp [hk]

/-! ## Places -/

theorem shift_add_bits_le (w : Width) (index : Nat) : shift w index + w.bits ≤ 8 := by
  cases w <;> simp only [shift, Width.bits] <;> omega

/-- The bits of an entry are among those of the list. -/
theorem mul_bits_add_bits_le {p : Packed} {index : Nat} (h : index < p.size) :
    index * p.width.bits + p.width.bits ≤ p.bytes.size * 8 := by
  have hbits : (index + 1) * p.width.bits ≤ p.size * p.width.bits := Nat.mul_le_mul_right _ h
  rwa [Nat.succ_mul, size, Nat.mul_assoc, Nat.mul_comm p.width.perByte,
    p.width.bits_mul_perByte] at hbits

/-- The bits of an entry are all in its byte, above its shift. -/
theorem bit_of_entry {w : Width} {t : Nat} (ht : t < w.bits) (index : Nat) :
    (w.bits * index + t) / 8 = byteIndex w index ∧
      (w.bits * index + t) % 8 = shift w index + t := by
  cases w <;> simp only [byteIndex, shift, Width.bits] at * <;> omega

/-- A bit whose byte is the one of an entry belongs to the entry if it lies in the
    entry's part of that byte. -/
theorem bit_in_entry_iff (w : Width) (index k : Nat) :
    (k / 8 = byteIndex w index ∧ shift w index ≤ k % 8 ∧ k % 8 < shift w index + w.bits) ↔
      w.bits * index ≤ k ∧ k < w.bits * index + w.bits := by
  cases w <;> simp only [byteIndex, shift, Width.bits] <;> omega

/-! ## Entries as digits -/

/-- The number of the bytes of a packed list. -/
def number (p : Packed) : Nat := littleEndian p.bytes.data.toList

theorem testBit_entry {p : Packed} {index : Nat} (h : index < p.size) (t : Nat) :
    (p.entry index h).toNat.testBit t =
      (p.number.testBit (p.width.bits * index + t) && decide (t < p.width.bits)) := by
  have hs := shift_add_bits_le p.width index
  have hw := p.width.bits_pos
  rw [entry, testBit_field (by omega)]
  by_cases ht : t < p.width.bits
  · obtain ⟨hbyte, hbit⟩ := bit_of_entry ht index
    have hi : byteIndex p.width index < p.bytes.data.toList.length := byteIndex_lt h
    rw [number, testBit_littleEndian_of_lt (by rw [hbyte]; exact hi), hbit]
    simp only [hbyte]
    rfl
  · simp [ht]

/-- The entry at an index is the digit at that place in base `2 ^ w`. -/
theorem toNat_entry {p : Packed} {index : Nat} (h : index < p.size) :
    (p.entry index h).toNat = p.number / 2 ^ (p.width.bits * index) % 2 ^ p.width.bits := by
  refine Nat.eq_of_testBit_eq fun t => ?_
  rw [testBit_entry, Nat.testBit_mod_two_pow, Nat.testBit_div_two_pow, Nat.add_comm t,
    Bool.and_comm]

/-- An entry is never above the mask. -/
theorem entry_le_mask {p : Packed} {index : Nat} (h : index < p.size) :
    p.entry index h ≤ p.width.mask := by
  rw [le_mask_iff, toNat_entry]
  exact Nat.mod_lt _ (Nat.two_pow_pos _)

/-- Writing an entry replaces its digit and keeps all other bits of the list. -/
theorem testBit_put {p : Packed} {index : Nat} (h : index < p.size) {value : UInt8}
    (hv : value ≤ p.width.mask) (k : Nat) :
    (p.put index h value).number.testBit k =
      if p.width.bits * index ≤ k ∧ k < p.width.bits * index + p.width.bits then
        value.toNat.testBit (k - p.width.bits * index)
      else p.number.testBit k := by
  have hi : byteIndex p.width index < p.bytes.data.toList.length := byteIndex_lt h
  have hset : (p.put index h value).bytes.data.toList =
      p.bytes.data.toList.set (byteIndex p.width index)
        (putField p.width (p.bytes.get _ (byteIndex_lt h)) (shift p.width index) value) := by
    rw [put, ByteArray.data_set, Array.toList_set]
  rw [number, hset, testBit_littleEndian_set hi, number]
  -- A bit is the entry's if it is in its byte and, within the byte, in its field.
  by_cases hk : k / 8 = byteIndex p.width index
  · rw [if_pos hk, testBit_putField (shift_add_bits_le _ _) hv]
    by_cases hin : shift p.width index ≤ k % 8 ∧ k % 8 < shift p.width index + p.width.bits
    · have hin' := (bit_in_entry_iff p.width index k).1 ⟨hk, hin⟩
      obtain ⟨t, rfl⟩ : ∃ t, k = p.width.bits * index + t := ⟨_, (Nat.add_sub_cancel' hin'.1).symm⟩
      rw [if_pos hin, if_pos hin', (bit_of_entry (by omega) index).2, Nat.add_sub_cancel_left,
        Nat.add_sub_cancel_left]
    · rw [if_neg hin, if_neg fun hin' => hin ((bit_in_entry_iff p.width index k).2 hin').2,
        testBit_littleEndian_of_lt (by rw [hk]; exact hi)]
      simp only [hk]
      rfl
  · rw [if_neg hk, if_neg fun hin' => hk ((bit_in_entry_iff p.width index k).2 hin').1]

/-- The entry that was written is the value, and every other one is as before. -/
theorem entry_put {p : Packed} {index : Nat} (h : index < p.size) {value : UInt8}
    (hv : value ≤ p.width.mask) {j : Nat} (hj : j < p.size) :
    (p.put index h value).entry j ((size_put p index h value).symm ▸ hj) =
      if index = j then value else p.entry j hj := by
  have hw : (p.put index h value).width = p.width := rfl
  refine UInt8.toNat_inj.1 (Nat.eq_of_testBit_eq fun t => ?_)
  rw [testBit_entry, testBit_put h hv, hw]
  by_cases ht : t < p.width.bits
  · rcases eq_or_ne index j with rfl | hne
    · rw [if_pos rfl, if_pos (by omega), Nat.add_sub_cancel_left, decide_eq_true ht, Bool.and_true]
    · -- The digits of two entries do not overlap.
      have hout : ¬(p.width.bits * index ≤ p.width.bits * j + t ∧
          p.width.bits * j + t < p.width.bits * index + p.width.bits) := by
        rcases Nat.lt_or_gt_of_ne hne with hlt | hgt
        · have := Nat.mul_le_mul_left p.width.bits hlt
          rw [Nat.mul_succ] at this
          omega
        · have := Nat.mul_le_mul_left p.width.bits hgt
          rw [Nat.mul_succ] at this
          omega
      rw [if_neg hne, if_neg hout, testBit_entry]
  · have hzero : (if index = j then value else p.entry j hj).toNat.testBit t = false := by
      have hle : (if index = j then value else p.entry j hj) ≤ p.width.mask := by
        split
        · exact hv
        · exact entry_le_mask hj
      exact Nat.testBit_lt_two_pow ((le_mask_iff.1 hle).trans_le
        (Nat.pow_le_pow_right (by decide) (by omega)))
    rw [hzero, decide_eq_false ht, Bool.and_false]

/-! ## The list of entries -/

theorem size_fill_empty (byte : UInt8) (n : Nat) : (fill byte n .empty).size = n := by
  rw [size_fill, ByteArray.size_empty, Nat.zero_add]

theorem toList_fill (byte : UInt8) (n : Nat) (bytes : ByteArray) :
    (fill byte n bytes).data.toList = bytes.data.toList ++ .replicate n byte := by
  induction n generalizing bytes with
  | zero => rw [fill, List.replicate_zero, List.append_nil]
  | succ n ih =>
    rw [fill, ih, ByteArray.data_push, Array.toList_push, List.append_assoc, List.replicate_succ]
    rfl

@[simp] theorem length_toList (p : Packed) : p.toList.length = p.size := List.length_ofFn

theorem getElem_toList (p : Packed) {i : Nat} (h : i < p.toList.length) :
    p.toList[i] = p.entry i (p.length_toList ▸ h) := List.getElem_ofFn h

/-- Reading succeeds with what the list of entries has at the index, and with nothing else. -/
theorem get_eq_ok_iff {p : Packed} {index : Nat} {value : UInt8} :
    p.get index = .ok value ↔ p.toList[index]? = some value := by
  rw [get]
  by_cases h : index < p.size
  · rw [dif_pos h, List.getElem?_eq_getElem (by rwa [length_toList]), getElem_toList,
      Except.ok.injEq, Option.some.injEq]
  · rw [dif_neg h, List.getElem?_eq_none (by rw [length_toList]; omega)]
    exact iff_of_false nofun nofun

/-- Writing an entry replaces one entry of the list. -/
theorem toList_put {p : Packed} {index : Nat} (h : index < p.size) {value : UInt8}
    (hv : value ≤ p.width.mask) : (p.put index h value).toList = p.toList.set index value := by
  refine List.ext_getElem (by simp [size_put]) fun j h₁ h₂ => ?_
  rw [List.length_set, length_toList] at h₂
  rw [getElem_toList, entry_put h hv h₂, List.getElem_set, getElem_toList]

theorem size_eq_iff {p q : Packed} (hw : p.width = q.width) :
    p.size = q.size ↔ p.bytes.size = q.bytes.size := by
  rw [size, size, hw, Nat.mul_right_cancel_iff q.width.perByte_pos]

/-- Packed lists are the same if and only if their entries have one width and are
    the same. -/
theorem eq_iff_toList {p q : Packed} : p = q ↔ p.width = q.width ∧ p.toList = q.toList := by
  refine ⟨fun h => h ▸ ⟨rfl, rfl⟩, fun ⟨hw, hl⟩ => ?_⟩
  have hsize : p.size = q.size := by rw [← length_toList, hl, length_toList]
  have hbytes := (size_eq_iff hw).1 hsize
  -- Each bit of the bytes is a bit of one entry.
  have hnumber : p.number = q.number := by
    refine Nat.eq_of_testBit_eq fun k => ?_
    obtain ⟨i, t, ht, rfl⟩ : ∃ i t, t < p.width.bits ∧ k = p.width.bits * i + t :=
      ⟨k / p.width.bits, k % p.width.bits, Nat.mod_lt _ p.width.bits_pos,
        (Nat.div_add_mod k p.width.bits).symm⟩
    by_cases hi : i < p.size
    · have hentry : p.entry i hi = q.entry i (hsize ▸ hi) := by
        rw [← getElem_toList p (by simpa using hi),
          ← getElem_toList q (by simpa [← hsize] using hi)]
        simp only [hl]
      have hbit := congrArg (fun value : UInt8 => value.toNat.testBit t) hentry
      rw [testBit_entry, testBit_entry, ← hw, decide_eq_true ht, Bool.and_true,
        Bool.and_true] at hbit
      exact hbit
    · have hbeyond : p.bytes.size ≤ (p.width.bits * i + t) / 8 := by
        rw [Nat.le_div_iff_mul_le (by decide), ← p.width.bits_mul_perByte]
        have := Nat.mul_le_mul_left p.width.bits (Nat.le_of_not_lt hi)
        rw [size] at this
        nlinarith
      rw [number, number, testBit_littleEndian_of_le hbeyond,
        testBit_littleEndian_of_le (hbytes ▸ hbeyond : q.bytes.size ≤ _)]
  have hraw : p.bytes = q.bytes :=
    ByteArray.ext (Array.toList_inj.1 (littleEndian_inj hbytes hnumber))
  cases p
  cases q
  cases hw
  cases hraw
  rfl

end Packed

end StatusList
