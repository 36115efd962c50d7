import StatusList.Flate.Inflate
import StatusList.Proofs.Basic
import StatusList.Proofs.LittleEndian

/-!
# Reading fields off a stream

The bits still to come are the binary digits of one number, and taking a field divides
that number (`takeBits_eq`). At the boundary between two bytes the number is the one of
the bytes to come, so that whole bytes are taken as they stand (`takeBits_between`).
-/

namespace StatusList.Flate

namespace BitSource

/-- The bits still to come as the digits of one number. -/
def number (s : BitSource) : Nat := littleEndian s.bytes.data.toList / 2 ^ s.taken

/-- The source after `n` more bits. -/
def skip (s : BitSource) (n : Nat) : BitSource := ⟨s.bytes, s.taken + n⟩

theorem skip_skip (s : BitSource) (m n : Nat) : (s.skip m).skip n = s.skip (m + n) := by
  rw [skip, skip, skip, Nat.add_assoc]

theorem number_skip (s : BitSource) (n : Nat) : (s.skip n).number = s.number / 2 ^ n := by
  rw [number, number, skip, pow_add, Nat.div_div_eq_div_mul]

theorem next?_eq {s : BitSource} (h : 0 < s.left) :
    s.next? = some (s.number.testBit 0, s.skip 1) := by
  have hi : s.taken / 8 < s.bytes.size := by rw [left] at h; omega
  rw [next?, dif_pos hi, number, Nat.testBit_div_two_pow, Nat.zero_add,
    testBit_littleEndian_of_lt (by exact hi)]
  rfl

end BitSource

theorem takeBit_eq {s : BitSource} (h : 0 < s.left) :
    takeBit s = .ok (s.number.testBit 0, s.skip 1) := by
  rw [takeBit, s.next?_eq h]

/-- A field is the low end of the number of the bits to come. -/
theorem takeBits_eq {n : Nat} {s : BitSource} (h : n ≤ s.left) :
    takeBits n s = .ok (s.number % 2 ^ n, s.skip n) := by
  induction n generalizing s with
  | zero => rw [pow_zero, Nat.mod_one]; rfl
  | succ n ih =>
    have hleft : n ≤ (s.skip 1).left := by
      simp only [BitSource.left, BitSource.skip] at h ⊢
      omega
    have hbit : (s.number.testBit 0).toNat = s.number % 2 := by
      rw [Nat.testBit_zero]
      rcases Nat.mod_two_eq_zero_or_one s.number with h0 | h0 <;> rw [h0] <;> rfl
    -- The first bit is the lowest digit, and the others are the field after it.
    calc takeBits (n + 1) s
        = .ok ((s.number.testBit 0).toNat + 2 * ((s.skip 1).number % 2 ^ n),
            (s.skip 1).skip n) := by
          rw [takeBits, bind_of_ok (takeBit_eq (by omega)), bind_of_ok (ih hleft)]
          rfl
      _ = .ok (s.number % 2 ^ (n + 1), s.skip (n + 1)) := by
          rw [s.number_skip, s.skip_skip, Nat.add_comm 1 n, hbit, pow_one, pow_succ', Nat.mod_mul]

/-! ## Whole bytes -/

/-- The source of which the bytes `done` have been read and `rest` are to come. -/
def between (done rest : List UInt8) : BitSource :=
  ⟨(done ++ rest).toByteArray, 8 * done.length⟩

theorem number_between (done rest : List UInt8) :
    (between done rest).number = littleEndian rest := by
  have hdone := littleEndian_lt done
  simp only [BitSource.number, between, List.data_toByteArray, littleEndian_append]
  rw [Nat.add_mul_div_left _ _ (Nat.two_pow_pos _), Nat.div_eq_of_lt hdone, Nat.zero_add]

theorem left_between (done rest : List UInt8) : (between done rest).left = 8 * rest.length := by
  simp only [BitSource.left, between, List.size_toByteArray, List.length_append]
  omega

theorem skip_between (done bytes rest : List UInt8) :
    (between done (bytes ++ rest)).skip (8 * bytes.length) = between (done ++ bytes) rest := by
  simp only [BitSource.skip, between, List.append_assoc, List.length_append, Nat.mul_add]

/-- A field of whole bytes is the number of these bytes. -/
theorem takeBits_between (done bytes rest : List UInt8) :
    takeBits (8 * bytes.length) (between done (bytes ++ rest)) =
      .ok (littleEndian bytes, between (done ++ bytes) rest) := by
  have hlt := littleEndian_lt bytes
  rw [takeBits_eq, number_between, skip_between, littleEndian_append, Nat.add_mul_mod_self_left,
    Nat.mod_eq_of_lt hlt]
  rw [left_between, List.length_append]
  omega

theorem takeBits_byte (done : List UInt8) (b : UInt8) (rest : List UInt8) :
    takeBits 8 (between done (b :: rest)) = .ok (b.toNat, between (done ++ [b]) rest) :=
  takeBits_between done [b] rest

/-- Going on at the next whole byte skips the rest of a byte that has been begun. -/
theorem align_skip_between (done : List UInt8) (b : UInt8) (rest : List UInt8) {n : Nat}
    (hn : 0 < n) (hn' : n ≤ 8) :
    align ((between done (b :: rest)).skip n) = .ok ((), between (done ++ [b]) rest) := by
  have haligned : ((between done (b :: rest)).skip n).aligned = between (done ++ [b]) rest := by
    simp only [BitSource.aligned, BitSource.skip, between, List.append_assoc, List.cons_append,
      List.nil_append, List.length_append, List.length_cons, List.length_nil]
    congr 1
    omega
  exact congrArg (fun s => Except.ok ((), s)) haligned

theorem align_between (done rest : List UInt8) :
    align (between done rest) = .ok ((), between done rest) := by
  have haligned : (between done rest).aligned = between done rest := by
    simp only [BitSource.aligned, between]
    congr 1
    omega
  exact congrArg (fun s => Except.ok ((), s)) haligned

/-- Four bytes are taken as one number, the highest first. -/
theorem takeBytes_four (done : List UInt8) (a b c d : UInt8) (rest : List UInt8) :
    takeBytes 4 (between done (a :: b :: c :: d :: rest)) =
      .ok (((a.toNat * 256 + b.toNat) * 256 + c.toNat) * 256 + d.toNat,
        between (done ++ [a, b, c, d]) rest) := by
  have hrange : List.range 4 = [0, 1, 2, 3] := rfl
  simp only [takeBytes, hrange, List.foldlM_cons, List.foldlM_nil, bind, StateT.bind, Except.bind,
    takeBits_byte, pure, StateT.pure, Except.pure, Nat.zero_mul, Nat.zero_add, List.append_assoc,
    List.cons_append, List.nil_append]

theorem emit_of_lt {limit : Nat} {out : ByteArray} (h : out.size < limit) (byte : UInt8) :
    emit limit out byte = .ok (out.push byte) := if_pos h

/-- At the boundary between two bytes the next byte is the first of those to come. -/
theorem byte_between (done : List UInt8) (b : UInt8) (rest : List UInt8)
    (h : (between done (b :: rest)).byteIndex < (between done (b :: rest)).bytes.size) :
    (between done (b :: rest)).bytes.get (between done (b :: rest)).byteIndex h = b := by
  have hindex : (between done (b :: rest)).byteIndex = done.length := by
    simp only [BitSource.byteIndex, between]
    omega
  have hlt : done.length < ((done ++ b :: rest).toByteArray).size := by simp
  have hbyte : (done ++ b :: rest).toByteArray.get done.length hlt = b :=
    List.getElem_toByteArray.trans (by simp)
  simp only [hindex]
  exact hbyte

/-- Stored bytes are added to the output as they stand. -/
theorem copyStored_between {limit : Nat} (done bytes rest : List UInt8) {out : ByteArray}
    (h : out.size + bytes.length ≤ limit) :
    copyStored limit bytes.length out (between done (bytes ++ rest)) =
      .ok (out ++ bytes.toByteArray, between (done ++ bytes) rest) := by
  induction bytes generalizing done out with
  | nil => simp [copyStored, pure, StateT.pure, Except.pure]
  | cons b bytes ih =>
    rw [List.length_cons] at h
    have hlt : (between done (b :: bytes ++ rest)).byteIndex <
        (between done (b :: bytes ++ rest)).bytes.size := by
      simp only [BitSource.byteIndex, between, List.size_toByteArray, List.length_append,
        List.length_cons]
      omega
    have hnext : (⟨(between done (b :: bytes ++ rest)).bytes,
        (between done (b :: bytes ++ rest)).taken + 8⟩ : BitSource) =
          between (done ++ [b]) (bytes ++ rest) := skip_between done [b] (bytes ++ rest)
    have hpush : out.push b = out ++ [b].toByteArray := ByteArray.append_toByteArray_singleton.symm
    rw [List.length_cons, copyStored]
    refine (dif_pos hlt).trans ?_
    have hget := byte_between done b (bytes ++ rest) hlt
    simp only [List.cons_append] at hget hnext ⊢
    simp only [hget, hnext, emit_of_lt (show out.size < limit by omega), bind, Except.bind]
    rw [ih (done ++ [b]) (by rw [ByteArray.size_push]; omega), hpush, ByteArray.append_assoc,
      ← List.toByteArray_append, List.append_assoc]
    rfl

end StatusList.Flate
