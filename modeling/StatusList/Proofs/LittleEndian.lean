import Mathlib
import StatusList.Bytes

/-!
# Bytes as one number

The bytes of a byte string are the digits of one number in base 256, the first the
least significant. Its binary digits are then the bits of the byte string, those of
a byte counted from the lowest. Packed lists and compressed streams both count bits
in this way, so what they find at some place is a digit of this number in base
`2 ^ n`.

* `testBit_littleEndian`: bit `k` of the number is bit `k % 8` of byte `k / 8`;
* `littleEndian_append`: what follows a byte string is above its bits;
* `littleEndian_inj`: byte strings of one length are told apart by their numbers.
-/

namespace StatusList

/-- The number whose digits in base 256 are `bytes`, the least significant first. -/
def littleEndian : List UInt8 → Nat
  | [] => 0
  | b :: rest => b.toNat + 256 * littleEndian rest

theorem littleEndian_eq_sum (bytes : List UInt8) :
    littleEndian bytes = ∑ k : Fin bytes.length, bytes[k].toNat * 256 ^ k.1 := by
  induction bytes with
  | nil => rfl
  | cons b rest ih =>
    rw [littleEndian, ih, Finset.mul_sum]
    erw [Fin.sum_univ_succ]
    simp only [Fin.getElem_fin, Fin.val_zero, List.getElem_cons_zero, pow_zero, mul_one,
      Fin.val_succ, List.getElem_cons_succ]
    congr 1
    refine Finset.sum_congr rfl fun k _ => ?_
    rw [pow_succ]
    ring

theorem littleEndian_lt (bytes : List UInt8) : littleEndian bytes < 2 ^ (8 * bytes.length) := by
  induction bytes with
  | nil => simp [littleEndian]
  | cons b rest ih =>
    have hb := b.toNat_lt
    rw [littleEndian, List.length_cons, Nat.mul_succ, pow_add]
    omega

theorem littleEndian_append (bytes bytes' : List UInt8) :
    littleEndian (bytes ++ bytes') =
      littleEndian bytes + 2 ^ (8 * bytes.length) * littleEndian bytes' := by
  induction bytes with
  | nil => simp [littleEndian]
  | cons b rest ih =>
    rw [List.cons_append, littleEndian, littleEndian, ih, List.length_cons, Nat.mul_succ, pow_add]
    ring

/-! ## Bits -/

theorem testBit_littleEndian (bytes : List UInt8) (k : Nat) :
    (littleEndian bytes).testBit k = (bytes.getD (k / 8) 0).toNat.testBit (k % 8) := by
  induction bytes generalizing k with
  | nil => simp [littleEndian]
  | cons b rest ih =>
    have hb : b.toNat < 2 ^ 8 := b.toNat_lt
    rw [littleEndian, Nat.add_comm, Nat.testBit_two_pow_mul_add _ hb]
    split
    · next hk => rw [Nat.div_eq_of_lt hk, Nat.mod_eq_of_lt hk, List.getD_cons_zero]
    · next hk =>
      obtain ⟨j, rfl⟩ : ∃ j, k = j + 8 := ⟨k - 8, by omega⟩
      rw [Nat.add_sub_cancel, ih, Nat.add_div_right _ (by decide), List.getD_cons_succ,
        Nat.add_mod_right]

theorem testBit_littleEndian_of_lt {bytes : List UInt8} {k : Nat} (h : k / 8 < bytes.length) :
    (littleEndian bytes).testBit k = bytes[k / 8].toNat.testBit (k % 8) := by
  rw [testBit_littleEndian, List.getD_eq_getElem _ _ h]

theorem testBit_littleEndian_of_le {bytes : List UInt8} {k : Nat} (h : bytes.length ≤ k / 8) :
    (littleEndian bytes).testBit k = false := by
  rw [testBit_littleEndian, List.getD_eq_default _ _ h]
  exact Nat.zero_testBit _

/-- Replacing a byte replaces its eight bits. -/
theorem testBit_littleEndian_set {bytes : List UInt8} {i : Nat} (h : i < bytes.length) (b : UInt8)
    (k : Nat) : (littleEndian (bytes.set i b)).testBit k =
      if k / 8 = i then b.toNat.testBit (k % 8) else (littleEndian bytes).testBit k := by
  rw [testBit_littleEndian, testBit_littleEndian]
  split
  · next hk =>
    subst hk
    rw [List.getD_eq_getElem _ _ (by simpa using h), List.getElem_set_self]
  · next hk => rw [List.getD_eq_getElem?_getD, List.getElem?_set_ne (Ne.symm hk),
      ← List.getD_eq_getElem?_getD]

/-- Byte strings of one length are told apart by their numbers. -/
theorem littleEndian_inj {bytes bytes' : List UInt8} (hl : bytes.length = bytes'.length)
    (h : littleEndian bytes = littleEndian bytes') : bytes = bytes' := by
  induction bytes generalizing bytes' with
  | nil => exact (List.eq_nil_of_length_eq_zero hl.symm).symm
  | cons b rest ih =>
    obtain ⟨b', rest', rfl⟩ := List.exists_cons_of_length_eq_add_one hl.symm
    have hb := b.toNat_lt
    have hb' := b'.toNat_lt
    rw [littleEndian, littleEndian] at h
    rw [UInt8.toNat_inj.1 (by omega : b.toNat = b'.toNat),
      ih (by simpa using hl) (by omega : littleEndian rest = littleEndian rest')]

end StatusList
