import StatusList.Proofs.Packed.Runs

/-!
# Lists of one value

A list that has one value in all its entries is made of one byte, which is filled with the value
round by round, from the lowest bits up, and then stands for every byte of the list. The rounds
come out even, because every width divides the bits of a byte, and the value is moved up by less
than it would take to lose a bit of it (`Filling.Exact`).

The list is the one that is left when the value is set in one entry after the other of a list of
zeros, in whatever order that is done (`replicate_eq_sets`): the order is lost, because every entry
is set and to the same value.

* `Filling.testBit_after`: the bits of the byte after some rounds;
* `exists_foldlM_set`: the entries after one value has been set in some of them.
-/

namespace StatusList

namespace Packed

variable {w : Width} {value : UInt8}

theorem le_mask_iff_toNat_le : value ≤ w.mask ↔ value.toNat ≤ 2 ^ w.bits - 1 := by
  rw [UInt8.le_iff_toNat_le, mask_eq]

/-! ## Filling a byte -/

namespace Filling

/-- There is room in a byte for each of its entries. -/
theorem mul_add_bits_le {k : Nat} (h : k < w.perByte) : w.bits * k + w.bits ≤ 8 := by
  rw [← Nat.mul_succ, ← w.bits_mul_perByte]
  exact Nat.mul_le_mul_left w.bits h

/-- What is filled after `k` rounds. -/
def after (w : Width) (value : UInt8) (k : Nat) : Filling := (round w value)^[k] ⟨0, 0⟩

theorem after_succ (w : Width) (value : UInt8) (k : Nat) :
    after w value (k + 1) = (after w value k).round w value :=
  Function.iterate_succ_apply' _ _ _

/-- As long as there is room in the byte, every round moves up by one entry. -/
theorem toNat_shift_after (value : UInt8) {k : Nat} (h : k ≤ w.perByte) :
    (after w value k).shift.toNat = w.bits * k := by
  induction k with
  | zero => rfl
  | succ k ih =>
    have hk := ih (by omega)
    have hroom := mul_add_bits_le h
    have hbits := w.bits_pos
    have hlt : (after w value k).shift.toNat < 8 := by omega
    rw [after_succ, toNat_shift_round w value (UInt8.lt_iff_toNat_lt.2 hlt), hk, Nat.mul_succ]

theorem shift_after_lt {k : Nat} (h : k < w.perByte) : (after w value k).shift < 8 := by
  have hroom := mul_add_bits_le h
  have hbits := w.bits_pos
  have hlt : w.bits * k < 8 := by omega
  rwa [UInt8.lt_iff_toNat_lt, toNat_shift_after value h.le]

theorem shift_after_perByte (w : Width) (value : UInt8) :
    (after w value w.perByte).shift = 8 := by
  rw [← UInt8.toNat_inj, toNat_shift_after value le_rfl, w.bits_mul_perByte]
  rfl

/-- There are as many rounds as a byte has entries. -/
theorem complete_after {k rest : Nat} (h : k + rest = w.perByte) :
    complete w value (after w value k) = after w value w.perByte := by
  induction rest generalizing k with
  | zero =>
    obtain rfl : k = w.perByte := h
    rw [complete, shift_after_perByte, if_neg (by decide)]
  | succ rest ih =>
    rw [complete, if_pos (shift_after_lt (by omega)), ← after_succ]
    exact ih (by omega)

theorem shift_after_eq (value : UInt8) {k : Nat} (h : k < w.perByte) :
    (after w value k).shift = (w.bits * k).toUInt8 := by
  have hroom := mul_add_bits_le h
  rw [← UInt8.toNat_inj, toNat_shift_after value h.le, Nat.toUInt8_eq, UInt8.toNat_ofNat',
    Nat.mod_eq_of_lt (by omega)]

/-- A value that fits into an entry loses no bit where it is moved up to one. -/
theorem toNat_shiftLeft_after (hv : value ≤ w.mask) {k : Nat} (h : k < w.perByte) :
    (value <<< (after w value k).shift).toNat =
      value.toNat * 2 ^ (after w value k).shift.toNat := by
  rw [toNat_shift_after value h.le, shift_after_eq value h,
    toNat_shiftLeft_of_le_mask (mul_add_bits_le h) hv]

/-- After `k` rounds the lowest `k` entries of the byte have the bits of the value, and there is
    nothing above them. -/
theorem testBit_after (hv : value ≤ w.mask) {k : Nat} (h : k ≤ w.perByte) (t : Nat) :
    (after w value k).byte.toNat.testBit t =
      (decide (t < w.bits * k) && value.toNat.testBit (t % w.bits)) := by
  induction k with
  | zero =>
    rw [decide_eq_false (by omega), Bool.false_and]
    exact Nat.zero_testBit t
  | succ k ih =>
    have hroom := mul_add_bits_le h
    have hbits := w.bits_pos
    rw [after_succ, round, UInt8.toNat_or, Nat.testBit_or, ih (by omega), shift_after_eq value h,
      testBit_shiftLeft (by omega), Nat.mul_succ]
    by_cases hlow : t < w.bits * k
    · simp [hlow, show t < w.bits * k + w.bits by omega, show ¬w.bits * k ≤ t by omega]
    · obtain ⟨u, rfl⟩ := Nat.exists_eq_add_of_le (Nat.le_of_not_lt hlow)
      by_cases hu : u < w.bits
      · simp [hu, show w.bits * k + u < 8 by omega, Nat.mod_eq_of_lt hu]
      · -- Above the new entry there would only be bits that the value does not have.
        have hnone : value.toNat.testBit u = false :=
          Nat.testBit_lt_two_pow ((le_mask_iff.1 hv).trans_le
            (Nat.pow_le_pow_right (by decide) (Nat.le_of_not_lt hu)))
        simp [hu, hnone]

/-- The rounds that fill a byte come out even, and the value stays whole in each of them. -/
structure Exact (w : Width) (value : UInt8) : Prop where
  /-- There is a round for each entry of the byte, and no other one. -/
  rounds : complete w value ⟨0, 0⟩ = after w value (8 / w.bits)
  goesOn : ∀ k < 8 / w.bits, (after w value k).shift < 8
  /-- What counts the bits does not wrap around. -/
  counts : ∀ k ≤ 8 / w.bits, (after w value k).shift.toNat = w.bits * k
  /-- In the end all eight bits are filled, and no more than these. -/
  ends : (complete w value ⟨0, 0⟩).shift = 8
  /-- No bit of a value that fits into an entry is moved out of the byte. -/
  whole : value.toNat ≤ 2 ^ w.bits - 1 → ∀ k < 8 / w.bits,
    (value <<< (after w value k).shift).toNat = value.toNat * 2 ^ (after w value k).shift.toNat

theorem exact (w : Width) (value : UInt8) : Exact w value where
  rounds := complete_after (Nat.zero_add _)
  goesOn _ := shift_after_lt
  counts _ := toNat_shift_after value
  ends := by
    have hrounds : complete w value ⟨0, 0⟩ = after w value w.perByte :=
      complete_after (k := 0) (Nat.zero_add _)
    rw [hrounds, shift_after_perByte]
  whole hv _ := toNat_shiftLeft_after (le_mask_iff_toNat_le.2 hv)

end Filling

/-- Every entry of a byte that is filled is the value. -/
theorem field_spread (hv : value ≤ w.mask) (index : Nat) :
    field w (spread w value) (shift w index) = value := by
  have hroom := shift_add_bits_le w index
  have hbits := w.bits_pos
  have hrounds : spread w value = (Filling.after w value w.perByte).byte :=
    congrArg Filling.byte (Filling.complete_after (Nat.zero_add _))
  -- An entry begins where a round has begun, so its bits are those of the value in order.
  obtain ⟨k, hk⟩ : w.bits ∣ shift w index := by
    cases w <;> simp only [shift, Width.bits] <;> omega
  refine UInt8.toNat_inj.1 (Nat.eq_of_testBit_eq fun t => ?_)
  rw [testBit_field (by omega), hrounds, Filling.testBit_after hv le_rfl, w.bits_mul_perByte]
  by_cases ht : t < w.bits
  · have hmod : (shift w index + t) % w.bits = t := by
      rw [hk, Nat.mul_add_mod, Nat.mod_eq_of_lt ht]
    simp [ht, hmod, show shift w index + t < 8 by omega]
  · have hnone : value.toNat.testBit t = false :=
      Nat.testBit_lt_two_pow ((le_mask_iff.1 hv).trans_le
        (Nat.pow_le_pow_right (by decide) (Nat.le_of_not_lt ht)))
    simp [ht, hnone]

/-! ## Filling a list -/

theorem get_fill {byte : UInt8} {n i : Nat} (h : i < (fill byte n .empty).size) :
    (fill byte n .empty).get i h = byte := by
  have hmem : (fill byte n .empty).get i h ∈ (fill byte n .empty).data.toList :=
    List.getElem_mem (show i < (fill byte n .empty).data.toList.length from h)
  rw [toList_fill] at hmem
  exact List.eq_of_mem_replicate hmem

/-- The entries of a list of which every byte is filled with a value. -/
theorem toList_spread (hv : value ≤ w.mask) (n : Nat) :
    (mk w (fill (spread w value) n .empty)).toList = List.replicate (n * w.perByte) value := by
  have hsize : (mk w (fill (spread w value) n .empty)).size = n * w.perByte := by
    rw [size, size_fill_empty]
  refine List.eq_replicate_iff.2 ⟨by rw [length_toList, hsize], fun b hb => ?_⟩
  obtain ⟨i, hi, rfl⟩ := List.getElem_of_mem hb
  rw [getElem_toList, entry, get_fill, field_spread hv]

/-! ## Setting entries -/

/-- After one value has been set in some entries, these have it and the others are as before. -/
theorem getElem?_foldl_set {α : Type} (value : α) (order : List Nat) (entries : List α) (j : Nat) :
    (order.foldl (fun l i => l.set i value) entries)[j]? =
      if j ∈ order ∧ j < entries.length then some value else entries[j]? := by
  induction order generalizing entries with
  | nil => simp
  | cons i order ih =>
    rw [List.foldl_cons, ih, List.length_set, List.getElem?_set]
    by_cases hi : j = i
    · by_cases hj : j < entries.length <;> simp_all
    · simp [hi, Ne.symm hi]

/-- One value may be set in any entries, one after the other. -/
theorem exists_foldlM_set {p : Packed} (hv : value ≤ p.width.mask) {order : List Nat}
    (h : ∀ i ∈ order, i < p.size) :
    ∃ q, order.foldlM (fun q i => q.set i value) p = .ok q ∧ q.width = p.width ∧
      q.toList = order.foldl (fun l i => l.set i value) p.toList := by
  induction order generalizing p with
  | nil => exact ⟨p, rfl, rfl, rfl⟩
  | cons i order ih =>
    obtain ⟨hi, horder⟩ := List.forall_mem_cons.1 h
    have hset : p.set i value = .ok (p.put i hi value) := by
      rw [set_eq, dif_pos hi, if_neg (Nat.not_lt.2 (le_mask_iff_toNat_le.1 hv))]
    obtain ⟨q, hq, hwidth, hlist⟩ := ih (p := p.put i hi value) hv (by rwa [size_put])
    refine ⟨q, ?_, hwidth, ?_⟩
    · rw [List.foldlM_cons, hset]
      exact hq
    · rw [hlist, toList_put hi hv, List.foldl_cons]

/-! ## The whole -/

theorem zeros_eq (w : Width) (entries : Nat) :
    zeros w entries =
      if 0 < entries ∧ w.perByte ∣ entries then .ok ⟨w, fill 0 (entries / w.perByte) .empty⟩
      else .error (.invalidSize entries w.perByte) := by
  have hsize : ¬(entries = 0 ∨ entries % w.perByte ≠ 0) ↔ 0 < entries ∧ w.perByte ∣ entries := by
    rw [not_or, not_not, Nat.pos_iff_ne_zero, Nat.dvd_iff_mod_eq_zero]
  rw [zeros, ← ite_not]
  simp only [hsize]

/-- Making a list of one value fails first for a size that does not fill whole bytes and then for
    a value that does not fit. -/
theorem replicate_eq (w : Width) (entries : Nat) (value : UInt8) :
    replicate w entries value =
      if 0 < entries ∧ w.perByte ∣ entries then
        if 2 ^ w.bits - 1 < value.toNat then
          .error (.valueTooLarge value (.ofNat (2 ^ w.bits - 1)))
        else .ok ⟨w, fill (spread w value) (entries / w.perByte) .empty⟩
      else .error (.invalidSize entries w.perByte) := by
  rw [replicate, zeros_eq, checkValue_eq]
  split
  · split
    · rfl
    · simp only [bind, Except.bind, pure, Except.pure, size_fill, ByteArray.size_empty,
        Nat.zero_add]
  · rfl

/-- The list in which every entry has the value has been made when the value has been set in all
    entries of another, whatever the order was. -/
theorem foldlM_set_eq_ok {p q : Packed} (hwidth : q.width = p.width)
    (hlist : q.toList = List.replicate p.size value) (hv : value ≤ p.width.mask)
    {order : List Nat} (horder : order.Perm (List.range p.size)) :
    order.foldlM (fun q i => q.set i value) p = .ok q := by
  have hmem : ∀ i, i ∈ order ↔ i < p.size := fun i => by rw [horder.mem_iff, List.mem_range]
  obtain ⟨q', hq', hwidth', hlist'⟩ := exists_foldlM_set hv fun i => (hmem i).1
  rw [hq', Except.ok.injEq, eq_iff_toList, hwidth', hwidth, hlist', hlist]
  refine ⟨rfl, List.ext_getElem? fun j => ?_⟩
  rw [getElem?_foldl_set, List.getElem?_replicate, length_toList]
  by_cases hj : j < p.size
  · rw [if_pos ⟨(hmem j).2 hj, hj⟩, if_pos hj]
  · rw [if_neg fun h => hj h.2, if_neg hj, List.getElem?_eq_none (by rw [length_toList]; omega)]

/-- What is made of one value is as long as the list of zeros, and has the value everywhere. -/
theorem exists_zeros_of_replicate {entries : Nat} {p : Packed}
    (h : replicate w entries value = .ok p) :
    value ≤ w.mask ∧ p.width = w ∧ p.toList = List.replicate entries value ∧
      ∃ blank, zeros w entries = .ok blank ∧ blank.width = w ∧ blank.size = entries := by
  rw [replicate_eq] at h
  split at h
  · next hsize =>
    split at h
    · cases h
    · next hv =>
      obtain rfl := Except.ok.inj h
      have hle : value ≤ w.mask := le_mask_iff_toNat_le.2 (Nat.le_of_not_lt hv)
      have hblank : zeros w entries = .ok ⟨w, fill 0 (entries / w.perByte) .empty⟩ := by
        rw [zeros_eq, if_pos hsize]
      refine ⟨hle, rfl, ?_, _, hblank, rfl, size_of_zeros hblank⟩
      rw [toList_spread hle, Nat.div_mul_cancel hsize.2]
  · cases h

/-- A list of one value can be made just if the size fills whole bytes and the value fits, and the
    size is looked at first. It is the list that is left of one of zeros, once the value has been
    set in all its entries, in any order. The byte that it is made of is filled exactly. -/
theorem replicate_eq_sets (w : Width) (entries : Nat) (value : UInt8) :
    ((∃ p, replicate w entries value = .ok p) ↔
      0 < entries ∧ w.perByte ∣ entries ∧ value.toNat ≤ 2 ^ w.bits - 1) ∧
    (¬(0 < entries ∧ w.perByte ∣ entries) →
      replicate w entries value = .error (.invalidSize entries w.perByte)) ∧
    (0 < entries ∧ w.perByte ∣ entries → 2 ^ w.bits - 1 < value.toNat →
      replicate w entries value = .error (.valueTooLarge value (.ofNat (2 ^ w.bits - 1)))) ∧
    (∀ p, replicate w entries value = .ok p →
      ∃ blank, zeros w entries = .ok blank ∧
        (∀ order : List Nat, order.Perm (List.range entries) →
          order.foldlM (fun q i => q.set i value) blank = .ok p) ∧
        ∀ i < entries, p.get i = .ok value) ∧
    Filling.Exact w value := by
  refine ⟨?_, fun hsize => ?_, fun hsize hv => ?_, fun p hp => ?_, Filling.exact w value⟩
  · rw [replicate_eq, ← and_assoc]
    split
    · next hsize =>
      rw [and_iff_right hsize]
      split
      · next hv => exact iff_of_false (by simp) (by omega)
      · next hv => exact iff_of_true ⟨_, rfl⟩ (by omega)
    · next hsize => exact iff_of_false (by simp) fun h => hsize h.1
  · rw [replicate_eq, if_neg hsize]
  · rw [replicate_eq, if_pos hsize, if_pos hv]
  · obtain ⟨hv, hwidth, hlist, blank, hblank, rfl, rfl⟩ := exists_zeros_of_replicate hp
    refine ⟨blank, hblank, fun order => foldlM_set_eq_ok hwidth hlist hv, fun i hi => ?_⟩
    rw [get_eq_ok_iff, hlist, List.getElem?_replicate, if_pos hi]

/-- Four entries of four bits are nine after they have been set from the middle, and a size or a
    value that does not fit is refused. -/
theorem replicate_of_four_eq_sets :
    replicate .four 3 16 = .error (.invalidSize 3 2) ∧
    replicate .four 4 16 = .error (.valueTooLarge 16 15) ∧
    ∃ p blank, replicate .four 4 9 = .ok p ∧ zeros .four 4 = .ok blank ∧
      [2, 0, 3, 1].foldlM (fun q i => q.set i 9) blank = .ok p ∧ p.get 3 = .ok 9 := by
  obtain ⟨-, hsize, -⟩ := replicate_eq_sets .four 3 16
  obtain ⟨-, -, hvalue, -⟩ := replicate_eq_sets .four 4 16
  obtain ⟨hmade, -, -, hsets, -⟩ := replicate_eq_sets .four 4 9
  obtain ⟨p, hp⟩ := hmade.2 (by decide)
  obtain ⟨blank, hblank, horder, hget⟩ := hsets p hp
  exact ⟨hsize (by decide), hvalue (by decide) (by decide), p, blank, hp, hblank,
    horder [2, 0, 3, 1] (by decide), hget 3 (by decide)⟩

end Packed

end StatusList
