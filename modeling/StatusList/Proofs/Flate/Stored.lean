import StatusList.Flate.Zlib
import StatusList.Proofs.Flate.Reading

/-!
# Stored streams

The stream of stored blocks gives its bytes back (`unpack_stored`), and it is only a
little longer than them (`size_stored_le`).

The blocks are written after what is already there, so they are first seen as a
function of the bytes that are left (`storedBlocks`); reading them goes by the same
recursion.
-/

namespace StatusList.Flate

/-! ## Writing -/

/-- The stored blocks of bytes. -/
def storedBlocks (bytes : List UInt8) : List UInt8 :=
  if longestStored < bytes.length then
    storedHead false longestStored ++ bytes.take longestStored
      ++ storedBlocks (bytes.drop longestStored)
  else
    storedHead true bytes.length ++ bytes
termination_by bytes.length
decreasing_by simp only [List.length_drop, longestStored] at *; omega

theorem toList_extract (raw : ByteArray) (start stop : Nat) :
    (raw.extract start stop).data.toList = (raw.data.toList.drop start).take (stop - start) := by
  rw [ByteArray.data_extract, Array.toList_extract, List.extract_eq_take_drop]

theorem toList_storedFrom (raw : ByteArray) (start : Nat) (out : ByteArray) :
    (storedFrom raw start out).data.toList =
      out.data.toList ++ storedBlocks (raw.data.toList.drop start) := by
  have hlength : (raw.data.toList.drop start).length = raw.size - start := List.length_drop ..
  fun_induction storedFrom raw start out with
  | case1 start out h ih =>
    rw [ih (List.length_drop ..), storedBlocks.eq_1 (raw.data.toList.drop start),
      if_pos (by omega)]
    simp only [ByteArray.data_append, Array.toList_append, List.data_toByteArray, toList_extract,
      Nat.add_sub_cancel_left, List.append_assoc, List.drop_drop]
  | case2 start out h =>
    rw [storedBlocks, if_neg (by omega)]
    simp only [ByteArray.data_append, Array.toList_append, List.data_toByteArray, toList_extract,
      List.append_assoc, hlength]
    rw [List.take_of_length_le (by omega)]

theorem length_storedHead (last : Bool) (length : Nat) : (storedHead last length).length = 5 := rfl

/-- A block adds five bytes to those that it holds. -/
theorem length_storedBlocks_le (bytes : List UInt8) :
    (storedBlocks bytes).length ≤ bytes.length + 5 * (bytes.length / longestStored + 1) := by
  fun_induction storedBlocks bytes with
  | case1 bytes h ih =>
    simp only [List.length_append, length_storedHead, List.length_take, List.length_drop,
      longestStored] at *
    omega
  | case2 bytes h =>
    simp only [List.length_append, length_storedHead, longestStored] at *
    omega

/-- The blocks hold all bytes. -/
theorem length_le_storedBlocks (bytes : List UInt8) :
    bytes.length ≤ (storedBlocks bytes).length := by
  fun_induction storedBlocks bytes with
  | case1 bytes h ih =>
    simp only [List.length_append, List.length_take, List.length_drop] at *
    omega
  | case2 bytes h =>
    rw [List.length_append]
    exact Nat.le_add_left ..

theorem size_stored_le (raw : ByteArray) :
    (stored raw).size ≤ raw.size + 5 * (raw.size / longestStored + 1) := by
  have h : (stored raw).size = (storedBlocks raw.data.toList).length :=
    congrArg List.length (toList_storedFrom raw 0 .empty)
  rw [h]
  exact length_storedBlocks_le _

/-! ## Reading -/

/-- A number of two bytes is taken as it was written. -/
theorem takeBits_twoBytes (done : List UInt8) {n : Nat} (h : n < 65536) (rest : List UInt8) :
    takeBits 16 (between done (twoBytes n ++ rest)) =
      .ok (n, between (done ++ twoBytes n) rest) := by
  have hnumber : littleEndian (twoBytes n) = n := by
    simp only [littleEndian, twoBytes, Nat.toUInt8_eq, UInt8.toNat_ofNat']
    omega
  have htake := takeBits_between done (twoBytes n) rest
  rwa [hnumber] at htake

theorem testBit_toUInt8 (b : Bool) : b.toUInt8.toNat.testBit 0 = b := by cases b <;> rfl

/-- The first three bits of a stored block tell whether it is the last, and that it is
    stored. -/
theorem take_kind (last : Bool) (done rest : List UInt8) :
    takeBit (between done (last.toUInt8 :: rest)) =
        .ok (last, (between done (last.toUInt8 :: rest)).skip 1) ∧
      takeBits 2 ((between done (last.toUInt8 :: rest)).skip 1) =
        .ok (0, (between done (last.toUInt8 :: rest)).skip 3) := by
  have hleft := left_between done (last.toUInt8 :: rest)
  have hmod : last.toUInt8.toNat / 2 % 4 = 0 := by cases last <;> rfl
  have hnumber := number_between done (last.toUInt8 :: rest)
  rw [List.length_cons] at hleft
  constructor
  · rw [takeBit_eq (by omega), hnumber]
    have hbit : (littleEndian (last.toUInt8 :: rest)).testBit 0 = last := by
      rw [testBit_littleEndian_of_lt (by simp)]
      exact testBit_toUInt8 last
    rw [hbit]
  · have hleft' : 2 ≤ ((between done (last.toUInt8 :: rest)).skip 1).left := by
      simp only [BitSource.left, BitSource.skip] at hleft ⊢
      omega
    rw [takeBits_eq hleft', BitSource.number_skip, hnumber, BitSource.skip_skip, littleEndian]
    congr 2
    omega

/-- What follows the first three bits of a stored block: the rest of their byte is skipped,
    and the length stands twice, the second time with its bits inverted. -/
theorem takeStored_skip {limit : Nat} (done : List UInt8) (b : UInt8) (bytes rest : List UInt8)
    (out : ByteArray) (hn : bytes.length ≤ longestStored) (h : out.size + bytes.length ≤ limit) :
    takeStored limit out ((between done (b :: (twoBytes bytes.length ++
        (twoBytes (0xFFFF - bytes.length) ++ (bytes ++ rest))))).skip 3) =
      .ok (out ++ bytes.toByteArray, between (done ++ [b] ++ twoBytes bytes.length
        ++ twoBytes (0xFFFF - bytes.length) ++ bytes) rest) := by
  rw [longestStored] at hn
  have halign := align_skip_between done b (twoBytes bytes.length ++
    (twoBytes (0xFFFF - bytes.length) ++ (bytes ++ rest))) (n := 3) (by decide) (by decide)
  have hlength := takeBits_twoBytes (done ++ [b]) (show bytes.length < 65536 by omega)
    (twoBytes (0xFFFF - bytes.length) ++ (bytes ++ rest))
  have hcheck := takeBits_twoBytes (done ++ [b] ++ twoBytes bytes.length)
    (show 0xFFFF - bytes.length < 65536 by omega) (bytes ++ rest)
  rw [takeStored, bind_of_ok halign, bind_of_ok hlength, bind_of_ok hcheck]
  refine (congrFun (if_neg (by omega)) _).trans ?_
  exact copyStored_between _ bytes rest h

/-- A stored block adds the bytes that it holds. -/
theorem takeBlock_stored {limit : Nat} (last : Bool) (done bytes rest : List UInt8)
    (out : ByteArray) (hn : bytes.length ≤ longestStored) (h : out.size + bytes.length ≤ limit) :
    takeBlock limit out (between done (storedHead last bytes.length ++ bytes ++ rest)) =
      .ok ((last, out ++ bytes.toByteArray),
        between (done ++ storedHead last bytes.length ++ bytes) rest) := by
  have hcode : storedHead last bytes.length ++ bytes ++ rest =
      last.toUInt8 :: (twoBytes bytes.length ++
        (twoBytes (0xFFFF - bytes.length) ++ (bytes ++ rest))) := by
    simp [storedHead]
  obtain ⟨hlast, hkind⟩ := take_kind last done
    (twoBytes bytes.length ++ (twoBytes (0xFFFF - bytes.length) ++ (bytes ++ rest)))
  have hstored := takeStored_skip done last.toUInt8 bytes rest out hn h
  rw [hcode, takeBlock, bind_of_ok hlast, bind_of_ok hkind]
  refine (bind_of_ok hstored _).trans ?_
  simp only [storedHead, List.append_assoc, List.cons_append, List.nil_append]
  rfl

/-- The blocks of bytes add these bytes. The fuel is enough if it is more than their
    number. -/
theorem takeBlocks_stored {limit fuel : Nat} (done bytes rest : List UInt8) (out : ByteArray)
    (hfuel : bytes.length < fuel) (h : out.size + bytes.length ≤ limit) :
    takeBlocks limit fuel out (between done (storedBlocks bytes ++ rest)) =
      .ok (out ++ bytes.toByteArray, between (done ++ storedBlocks bytes) rest) := by
  fun_induction storedBlocks bytes generalizing done out fuel with
  | case1 bytes hlong ih =>
    obtain ⟨fuel, rfl⟩ : ∃ n, fuel = n + 1 := ⟨fuel - 1, by omega⟩
    have hfirst : (bytes.take longestStored).length = longestStored := by
      rw [List.length_take]
      omega
    have hdrop : (bytes.drop longestStored).length = bytes.length - longestStored :=
      List.length_drop ..
    have hpos : 0 < longestStored := by decide
    have hroom : out.size + (bytes.take longestStored).length ≤ limit := by omega
    have hblock := takeBlock_stored false done (bytes.take longestStored)
      (storedBlocks (bytes.drop longestStored) ++ rest) out (by omega) hroom
    rw [hfirst] at hblock
    -- A block that is not the last is full, so there is less left than there was.
    have hfuel' : (bytes.drop longestStored).length < fuel := by omega
    have hrest := ih (done ++ storedHead false longestStored ++ bytes.take longestStored)
      (out ++ (bytes.take longestStored).toByteArray) hfuel'
      (by rw [ByteArray.size_append, List.size_toByteArray]; omega)
    rw [List.append_assoc _ (storedBlocks _) rest, takeBlocks, bind_of_ok hblock]
    refine hrest.trans ?_
    rw [ByteArray.append_assoc, ← List.toByteArray_append, List.take_append_drop]
    simp only [List.append_assoc]
  | case2 bytes hshort =>
    obtain ⟨fuel, rfl⟩ : ∃ n, fuel = n + 1 := ⟨fuel - 1, by omega⟩
    have hblock := takeBlock_stored true done bytes rest out (by omega) h
    rw [takeBlocks, bind_of_ok hblock, ← List.append_assoc]
    rfl

end StatusList.Flate
