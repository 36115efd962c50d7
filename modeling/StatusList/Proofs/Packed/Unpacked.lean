import StatusList.Proofs.Packed.Entries
import StatusList.Unpacked

/-!
# Unpacking reads the entries

Unpacking goes through the bits of each byte from the highest down, so that it meets
the entries of a byte in the opposite order, and puts each one at the opposite place
of its group. The places are the same ones in another order: a place put at its
opposite comes back (`placeOf_placeOf`), and what lies there when counted from the top
lies at the entry's shift when counted from the bottom (`fieldFromTop_placeOf`).

* `getElem?_unpackFrom`: which places a part of the walk has filled, and with what;
* `unpack_eq_toList`: the whole walk gives the list of entries.
-/

namespace StatusList

variable {w : Width} {raw : ByteArray}

/-! ## Opposite places -/

theorem placeOf_placeOf (w : Width) (i : Nat) : placeOf w (placeOf w i) = i := by
  cases w <;> simp only [placeOf, Width.perByte, Width.bits] <;> omega

/-- The opposite place is in the same byte. -/
theorem byteIndex_placeOf (w : Width) (i : Nat) :
    Packed.byteIndex w (placeOf w i) = Packed.byteIndex w i := by
  cases w <;> simp only [placeOf, Packed.byteIndex, Width.perByte, Width.bits] <;> omega

/-- What is below an entry and what is below its opposite, with the entry itself,
    make up a byte. -/
theorem shift_placeOf (w : Width) (i : Nat) :
    Packed.shift w (placeOf w i) + w.bits + Packed.shift w i = 8 := by
  cases w <;> simp only [placeOf, Packed.shift, Width.perByte, Width.bits] <;> omega

theorem shift_succ (w : Width) (i : Nat) :
    Packed.shift w (i + 1) = (Packed.shift w i + w.bits) % 8 := by
  cases w <;> simp only [Packed.shift, Width.bits] <;> omega

theorem placeOf_lt {i entries : Nat} (hd : w.perByte ∣ entries) (h : i < entries) :
    placeOf w i < entries := by
  obtain ⟨n, rfl⟩ := hd
  cases w <;> simp only [placeOf, Width.perByte, Width.bits] at * <;> omega

/-- The entry that the walk meets at an opposite place is the one of the place. -/
theorem fieldFromTop_placeOf (w : Width) (byte : UInt8) (i : Nat) :
    fieldFromTop w byte (Packed.shift w (placeOf w i)) =
      Packed.field w byte (Packed.shift w i) := by
  have h := shift_placeOf w i
  rw [fieldFromTop, Packed.field]
  congr 3
  omega

/-! ## The walk -/

theorem size_unpackFrom (n i offset : Nat) (out : ByteArray) :
    (unpackFrom w raw n i offset out).size = out.size := by
  induction n generalizing i offset out with
  | zero => rfl
  | succ n ih =>
    rw [unpackFrom, ih]
    split
    · exact Packed.size_replaced _ _ _ _
    · rfl

/-- The byte at an index, zero past the end. -/
def byteOr0 (raw : ByteArray) (i : Nat) : UInt8 := if h : i < raw.size then raw.get i h else 0

/-- Putting `n` entries from number `i` on fills the places that are opposite to
    `i, …, i + n - 1` and keeps all others. -/
theorem getElem?_unpackFrom {n i offset : Nat} {out : ByteArray} (ho : offset = Packed.shift w i)
    {k : Nat} (hk : k < out.size) :
    (unpackFrom w raw n i offset out).data.toList[k]? =
      if i ≤ placeOf w k ∧ placeOf w k < i + n then
        some (Packed.field w (byteOr0 raw (Packed.byteIndex w k)) (Packed.shift w k))
      else out.data.toList[k]? := by
  induction n generalizing i offset out with
  | zero => rw [unpackFrom, if_neg (by omega)]
  | succ n ih =>
    subst ho
    rw [unpackFrom]
    by_cases hi : placeOf w k = i
    · -- The first entry of these is the one for `k`, and no later one is put there.
      subst hi
      rw [ih (shift_succ w _).symm (by rwa [dif_pos (by rwa [placeOf_placeOf]),
        Packed.size_replaced]), if_neg (by omega), if_pos (by omega)]
      simp only [placeOf_placeOf, hk, ↓reduceDIte, ByteArray.data_set, Array.toList_set]
      rw [List.getElem?_set_self (by exact hk), fieldFromTop_placeOf]
      exact congrArg (fun j => some (Packed.field w (byteOr0 raw j) (Packed.shift w k)))
        (byteIndex_placeOf w k)
    · have hne : placeOf w i ≠ k := fun h => hi (by rw [← h, placeOf_placeOf])
      rw [ih (shift_succ w i).symm]
      · have hcond : (i + 1 ≤ placeOf w k ∧ placeOf w k < i + 1 + n) ↔
            i ≤ placeOf w k ∧ placeOf w k < i + (n + 1) := by omega
        simp only [hcond]
        congr 1
        split
        · rw [ByteArray.data_set, Array.toList_set, List.getElem?_set_ne hne]
        · rfl
      · split
        · rwa [Packed.size_replaced]
        · exact hk

theorem size_mul_eight_div (w : Width) (raw : ByteArray) :
    raw.size * 8 / w.bits = (Packed.mk w raw).size := by
  rw [Packed.size, ← w.bits_mul_perByte, Nat.mul_left_comm, Nat.mul_div_cancel_left _ w.bits_pos]

/-- Unpacking gives the list of entries. -/
theorem unpack_eq_toList (w : Width) (raw : ByteArray) :
    (unpack w raw).data.toList = (Packed.mk w raw).toList := by
  have hsize : (Packed.fill 0 (raw.size * 8 / w.bits) .empty).size = (Packed.mk w raw).size := by
    rw [Packed.size_fill, size_mul_eight_div, ByteArray.size_empty, Nat.zero_add]
  have hlength : (unpack w raw).data.toList.length = (Packed.mk w raw).size :=
    (size_unpackFrom _ _ _ _).trans hsize
  -- The walk goes through all entries, so it fills every place with its own entry.
  refine List.ext_getElem? fun k => ?_
  by_cases hk : k < (Packed.mk w raw).size
  · have hplace : placeOf w k < (Packed.mk w raw).size := placeOf_lt ⟨raw.size, by
      rw [Packed.size, Nat.mul_comm]⟩ hk
    rw [unpack, getElem?_unpackFrom (by simp [Packed.shift]) (by rwa [hsize]),
      if_pos ⟨Nat.zero_le _, by rwa [Nat.zero_add, size_mul_eight_div]⟩,
      List.getElem?_eq_getElem (by simpa using hk), Packed.getElem_toList, Packed.entry, byteOr0,
      dif_pos (Packed.byteIndex_lt hk)]
  · rw [List.getElem?_eq_none (by omega), List.getElem?_eq_none (by simpa using hk)]

end StatusList
