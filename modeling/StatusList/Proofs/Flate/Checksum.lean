import StatusList.Proofs.Flate.Grammar

/-!
# The checksum

The two running sums of the checksum never overflow, so that what they come to is the sum of the
bytes and the sum of these sums, as numbers, when divided by the modulus (`adler32_eq`).
-/

namespace StatusList.Flate

/-- A fold over a byte string is one over the list of its bytes. -/
theorem foldl_eq_foldl_toList {α : Type} (f : α → UInt8 → α) (init : α) (bytes : ByteArray) :
    bytes.foldl f init = bytes.data.toList.foldl f init := by
  have hloop : ∀ i j a, i + j = bytes.size →
      (ByteArray.foldlM.loop (m := Id) (fun a byte => pure (f a byte)) bytes bytes.size le_rfl i j
        a).run = (bytes.data.toList.drop j).foldl f a := by
    intro i
    induction i with
    | zero =>
      intro j a hj
      have hnil : bytes.data.toList.drop j = [] := List.drop_eq_nil_of_le (by
        change bytes.size ≤ j
        omega)
      rw [ByteArray.foldlM.loop, dif_neg (by omega), hnil]
      rfl
    | succ i ih =>
      intro j a hj
      have hlt : j < bytes.size := by omega
      have hcons : bytes.data.toList.drop j = bytes.get j hlt :: bytes.data.toList.drop (j + 1) :=
        List.drop_eq_getElem_cons (by exact hlt)
      rw [ByteArray.foldlM.loop, dif_pos hlt, hcons, List.foldl_cons, ← ih (j + 1) _ (by omega)]
      rfl
  rw [ByteArray.foldl, ByteArray.foldlM, dif_pos (Nat.le_refl _)]
  exact hloop _ _ _ (by omega)

theorem sumOf_append (raw : List UInt8) (byte : UInt8) :
    sumOf (raw ++ [byte]) = sumOf raw + byte.toNat := by
  rw [sumOf, sumOf, List.map_append, List.sum_append, List.map_singleton, List.sum_singleton,
    Nat.add_assoc]

/-- The running sums are the two sums of the checksum, when divided. -/
theorem foldl_step (raw : List UInt8) :
    (raw.foldl Adler.step Adler.start).sum.toNat = sumOf raw % 65521 ∧
      (raw.foldl Adler.step Adler.start).sums.toNat =
        (∑ i ∈ Finset.range raw.length, sumOf (raw.take (i + 1))) % 65521 := by
  induction raw using List.reverseRecOn with
  | nil => exact ⟨rfl, rfl⟩
  | append_singleton raw byte ih =>
    obtain ⟨hsum, hsums⟩ := ih
    have hbyte := byte.toNat_lt
    have hsum' : (raw.foldl Adler.step Adler.start).sum.toNat < 65521 := by
      rw [hsum]
      exact Nat.mod_lt _ (by decide)
    have hsums' : (raw.foldl Adler.step Adler.start).sums.toNat < 65521 := by
      rw [hsums]
      exact Nat.mod_lt _ (by decide)
    have hnext : ((raw ++ [byte]).foldl Adler.step Adler.start).sum.toNat =
        sumOf (raw ++ [byte]) % 65521 := by
      rw [List.foldl_concat, Adler.step, adlerModulus, UInt32.toNat_mod, UInt32.toNat_add,
        UInt8.toNat_toUInt32, sumOf_append]
      simp only [UInt32.reduceToNat]
      omega
    refine ⟨hnext, ?_⟩
    have hall : (raw ++ [byte]).take (raw.length + 1) = raw ++ [byte] := by
      rw [List.take_of_length_le]
      simp
    have hbefore : ∑ i ∈ Finset.range raw.length, sumOf ((raw ++ [byte]).take (i + 1)) =
        ∑ i ∈ Finset.range raw.length, sumOf (raw.take (i + 1)) :=
      Finset.sum_congr rfl fun i hi => by
        rw [List.take_append_of_le_length (Finset.mem_range.1 hi)]
    rw [List.length_append, List.length_singleton, Finset.sum_range_succ, hbefore, hall]
    have hstep : ((raw ++ [byte]).foldl Adler.step Adler.start).sums =
        ((raw.foldl Adler.step Adler.start).sums +
          ((raw ++ [byte]).foldl Adler.step Adler.start).sum) % adlerModulus := by
      rw [List.foldl_concat]
      rfl
    rw [hstep, adlerModulus, UInt32.toNat_mod, UInt32.toNat_add, hnext]
    simp only [UInt32.reduceToNat]
    omega

theorem adler32_eq (raw : ByteArray) : adler32 raw = checksum raw.data.toList := by
  obtain ⟨hsum, hsums⟩ := foldl_step raw.data.toList
  rw [adler32, foldl_eq_foldl_toList, Adler.value, hsum, hsums]
  rfl

/-- The checksum takes four bytes. -/
theorem checksum_lt (raw : List UInt8) : checksum raw < 2 ^ 32 := by
  rw [checksum]
  omega

end StatusList.Flate
