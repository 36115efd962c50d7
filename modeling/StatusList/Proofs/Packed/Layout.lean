import StatusList.Document
import StatusList.Proofs.Packed.Unpacked

/-!
# The layout of a packed list

The layout is arithmetic: with the bytes as one number, the first byte the least
significant, entry `i` is the digit at place `i` in base `2 ^ w`. Whoever reads the
bytes finds these digits, be it entry by entry, all at once, unpacked from the top of
each byte, or as JSON (`readers_agree`).
-/

namespace StatusList

namespace Packed

/-- The entries that the layout gives to a byte string: the digits in base `2 ^ w` of
    the number of the bytes, as many as fit. -/
def layout (w : Width) (raw : ByteArray) : List Nat :=
  (List.range (8 * raw.size / w.bits)).map fun i =>
    (∑ k : Fin raw.size, raw[k].toNat * 256 ^ k.1) / 2 ^ (w.bits * i) % 2 ^ w.bits

theorem number_eq_sum (w : Width) (raw : ByteArray) :
    (mk w raw).number = ∑ k : Fin raw.size, raw[k].toNat * 256 ^ k.1 :=
  littleEndian_eq_sum raw.data.toList

theorem length_layout (w : Width) (raw : ByteArray) :
    (layout w raw).length = (mk w raw).size := by
  rw [layout, List.length_map, List.length_range, Nat.mul_comm, size_mul_eight_div]

/-- The layout leaves no bits over. -/
theorem bits_mul_length_layout (w : Width) (raw : ByteArray) :
    w.bits * (layout w raw).length = 8 * raw.size := by
  rw [length_layout, size, Nat.mul_left_comm, w.bits_mul_perByte, Nat.mul_comm]

theorem map_toNat_toList (w : Width) (raw : ByteArray) :
    (mk w raw).toList.map UInt8.toNat = layout w raw := by
  refine List.ext_getElem (by simp [length_layout]) fun i h₁ _ => ?_
  rw [List.length_map, length_toList] at h₁
  rw [List.getElem_map, getElem_toList, toNat_entry, number_eq_sum]
  simp only [layout, List.getElem_map, List.getElem_range]

/-- Reading one entry gives the digit at its place, and fails past the last. -/
theorem map_toNat_get (w : Width) (raw : ByteArray) (i : Nat) :
    ((mk w raw).get i).map UInt8.toNat =
      if h : i < (layout w raw).length then .ok (layout w raw)[i]
      else .error (.outOfRange i (layout w raw).length) := by
  have hlength := length_layout w raw
  rw [get]
  by_cases h : i < (mk w raw).size
  · rw [dif_pos h, dif_pos (hlength ▸ h), Except.map]
    simp only [← map_toNat_toList, List.getElem_map, getElem_toList]
  · rw [dif_neg h, dif_neg (hlength ▸ h), hlength, Except.map]

/-! ## JSON -/

theorem push_number (depth : Nat) (out : String) (value : Nat) :
    Json.push .compact depth out (.ofNat value) = out ++ toString value := by
  rw [Json.ofNat, Json.ofInt, Json.push, Json.pushNumber]
  rfl

/-- Each further number is written after a comma. -/
theorem pushItems_numbers (depth : Nat) (out first : String) (values : List Nat) :
    Json.pushItems .compact depth (out ++ first) (values.map .ofNat) =
      out ++ ",".intercalate (first :: values.map toString) := by
  induction values generalizing out first with
  | nil => rw [List.map_nil, Json.pushItems, List.map_nil, String.intercalate_singleton]
  | cons value values ih =>
    rw [List.map_cons, Json.pushItems, push_number, Json.Layout.newline, String.append_empty, ih,
      List.map_cons, String.intercalate_cons_cons]
    simp only [String.append_assoc]

/-- The JSON text of a packed list is its entries between brackets, with commas
    between them. -/
theorem compact_toJson (p : Packed) :
    p.toJson.compact =
      "[" ++ ",".intercalate ((p.toList.map UInt8.toNat).map toString) ++ "]" := by
  have hmap : (p.toList.map fun value => Json.ofNat value.toNat) =
      (p.toList.map UInt8.toNat).map .ofNat := by
    rw [List.map_map]
    rfl
  rw [toJson, hmap, Json.compact]
  cases p.toList.map UInt8.toNat with
  | nil => rfl
  | cons value values =>
    rw [List.map_cons, Json.push, push_number, Json.Layout.newline, Json.Layout.newline,
      String.append_empty, String.append_empty, String.empty_append, pushItems_numbers,
      List.map_cons]

/-! ## All readers -/

/-- Every way to read a byte string finds the entries that the layout gives it, with no
    bits left over: unpacking from the top of each byte, listing all entries, reading
    them as JSON, and reading one entry at a time. So an encoded list that cannot be
    decoded fails alike for a packed and an unpacked reading, and otherwise both give the
    same entries. -/
theorem readers_agree (w : Width) (raw : ByteArray) :
    (unpack w raw).data.toList.map UInt8.toNat = layout w raw ∧
    (mk w raw).toList.map UInt8.toNat = layout w raw ∧
    (mk w raw).toJson.compact = "[" ++ ",".intercalate ((layout w raw).map toString) ++ "]" ∧
    (∀ i, ((mk w raw).get i).map UInt8.toNat =
      if h : i < (layout w raw).length then .ok (layout w raw)[i]
      else .error (.outOfRange i (layout w raw).length)) ∧
    w.bits * (layout w raw).length = 8 * raw.size ∧
    (∀ encoded, (decodeUnpacked w encoded).map (·.data.toList) =
      (ofEncoded w encoded).map toList) := by
  refine ⟨?_, map_toNat_toList w raw, ?_, map_toNat_get w raw, bits_mul_length_layout w raw,
    fun encoded => ?_⟩
  · rw [unpack_eq_toList, map_toNat_toList]
  · rw [compact_toJson, map_toNat_toList]
  · rw [decodeUnpacked, ofEncoded]
    cases decodePacked encoded with
    | error e => rfl
    | ok bytes => exact congrArg Except.ok (unpack_eq_toList w bytes)

end Packed

end StatusList
