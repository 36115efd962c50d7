import StatusList.Proofs.Flate.Checksum
import StatusList.Proofs.Flate.Limits
import StatusList.Proofs.Flate.Stored

/-!
# Packing and unpacking

A packed byte string unpacks to what it was made from if there is room for that, and
fails for want of room otherwise (`unpack_pack`). The coded stream needs no proof for
this: it is only used if it has been seen to give its bytes back. The stored stream is
what is left, and it always does.

* `unpack_pack`: the stream of a byte string under any limit;
* `size_pack_le`: the stream is not much longer than the byte string.
-/

namespace StatusList.Flate

/-! ## Checksum -/

/-- The checksum takes four bytes. -/
theorem adler32_lt (raw : ByteArray) : adler32 raw < 2 ^ 32 := by
  rw [adler32_eq]
  exact checksum_lt raw.data.toList

/-- A number of four bytes is taken as it was written. -/
theorem takeBytes_fourBytes (done : List UInt8) {n : Nat} (h : n < 2 ^ 32) (rest : List UInt8) :
    takeBytes 4 (between done (fourBytes n ++ rest)) =
      .ok (n, between (done ++ fourBytes n) rest) := by
  have htake := takeBytes_four done (n >>> 24).toUInt8 (n >>> 16).toUInt8 (n >>> 8).toUInt8
    n.toUInt8 rest
  have hvalue : (((n >>> 24).toUInt8.toNat * 256 + (n >>> 16).toUInt8.toNat) * 256
      + (n >>> 8).toUInt8.toNat) * 256 + n.toUInt8.toNat = n := by
    simp only [Nat.toUInt8_eq, UInt8.toNat_ofNat', Nat.shiftRight_eq_div_pow]
    omega
  rw [hvalue] at htake
  exact htake

/-! ## Streams -/

theorem ofBytes_eq_between (stream : ByteArray) :
    BitSource.ofBytes stream = between [] stream.data.toList := by
  rw [between, List.nil_append, toByteArray_toList]
  rfl

theorem toList_frame_stored (raw : ByteArray) :
    (frame raw (stored raw)).data.toList =
      header ++ (storedBlocks raw.data.toList ++ (fourBytes (adler32 raw) ++ [])) := by
  have hstored : (stored raw).data.toList = storedBlocks raw.data.toList :=
    toList_storedFrom raw 0 .empty
  simp only [frame, ByteArray.data_append, Array.toList_append, List.data_toByteArray, hstored,
    List.append_assoc, List.append_nil]

/-- The fuel of a stream is the number of its bits, and each block takes some. -/
theorem inflate_storedBlocks (raw : ByteArray) (done rest : List UInt8) :
    inflate raw.size (between done (storedBlocks raw.data.toList ++ rest)) =
      .ok (raw, between (done ++ storedBlocks raw.data.toList) rest) := by
  have hleft := left_between done (storedBlocks raw.data.toList ++ rest)
  have hlength := length_le_storedBlocks raw.data.toList
  have hfuel : raw.data.toList.length <
      (between done (storedBlocks raw.data.toList ++ rest)).left + 1 := by
    rw [hleft, List.length_append]
    omega
  have hroom : ByteArray.empty.size + raw.data.toList.length ≤ raw.size := by
    rw [ByteArray.size_empty, Nat.zero_add]
    exact Nat.le_refl _
  have hblocks := takeBlocks_stored done raw.data.toList rest .empty hfuel hroom
  rw [toByteArray_toList, ByteArray.empty_append] at hblocks
  exact hblocks

theorem takeStream_stored (raw : ByteArray) :
    takeStream raw.size (between [] (frame raw (stored raw)).data.toList) =
      .ok (raw, between (header ++ storedBlocks raw.data.toList ++ fourBytes (adler32 raw))
        []) := by
  have hmethod := takeBits_byte [] 0x78
    (0xDA :: (storedBlocks raw.data.toList ++ (fourBytes (adler32 raw) ++ [])))
  have hflags := takeBits_byte [0x78] 0xDA
    (storedBlocks raw.data.toList ++ (fourBytes (adler32 raw) ++ []))
  have hinflate := inflate_storedBlocks raw header (fourBytes (adler32 raw) ++ [])
  have halign := align_between (header ++ storedBlocks raw.data.toList)
    (fourBytes (adler32 raw) ++ [])
  have hchecksum := takeBytes_fourBytes (header ++ storedBlocks raw.data.toList)
    (adler32_lt raw) []
  rw [toList_frame_stored, takeStream]
  refine (bind_of_ok hmethod _).trans ((bind_of_ok hflags _).trans ?_)
  -- The two bytes of the header are a multiple of 31, and no dictionary is asked for.
  refine (congrFun (if_neg (by decide)) _).trans ?_
  refine (bind_of_ok hinflate _).trans ((bind_of_ok halign _).trans
    ((bind_of_ok hchecksum _).trans ?_))
  exact congrFun (if_neg (by simp)) _

/-- The stored stream gives its bytes back. -/
theorem unpack_stored (raw : ByteArray) : unpack raw.size (frame raw (stored raw)) = .ok raw := by
  rw [unpack, ofBytes_eq_between, StateT.run', takeStream_stored]
  rfl

theorem givesBack_eq_true {raw stream : ByteArray} (h : givesBack raw stream = true) :
    unpack raw.size stream = .ok raw := by
  unfold givesBack at h
  split at h
  · next bytes hb => rw [hb, of_decide_eq_true h]
  · simp at h

/-- Unpacking gives back what was packed if there is room for it, and finds the output
    full otherwise. -/
theorem unpack_pack (limit : Nat) (raw : ByteArray) :
    unpack limit (pack raw) = if raw.size ≤ limit then .ok raw else .error .full := by
  have h : unpack raw.size (pack raw) = .ok raw := by
    rw [pack]
    split
    · next hshort => exact givesBack_eq_true hshort.2
    · exact unpack_stored raw
  exact unpack_of_unpack h limit

/-- The stream is not much longer than what was packed. -/
theorem size_pack_le (raw : ByteArray) :
    (pack raw).size ≤ raw.size + 5 * (raw.size / longestStored + 1) + 6 := by
  have hplain : (frame raw (stored raw)).size ≤
      raw.size + 5 * (raw.size / longestStored + 1) + 6 := by
    have hstored := size_stored_le raw
    simp only [frame, ByteArray.size_append, List.size_toByteArray, header, fourBytes,
      List.length_cons, List.length_nil]
    omega
  rw [pack]
  split
  · next hshort => exact hshort.1.trans hplain
  · exact hplain

end StatusList.Flate
