import StatusList.Bytes
import StatusList.Encoded
import StatusList.Width

/-!
# Packed lists

A *packed list* keeps its entries one after the other in a byte string, the
first entry of each byte in the lowest bits. The number of entries is not kept:
it is what the bytes have room for.

* `Packed.get`, `Packed.set`: one entry, found by its index;
* `Packed.toList`: all entries, in order.
-/

namespace StatusList

/-- A list of entries of one width, packed into bytes. -/
structure Packed where
  /-- The width of every entry. -/
  width : Width
  /-- The bytes that hold the entries. -/
  bytes : ByteArray
  deriving DecidableEq

namespace Packed

/-! ## Size and places -/

/-- The number of entries. -/
def size (p : Packed) : Nat := p.bytes.size * p.width.perByte

/-- Whether there are no entries. -/
def isEmpty (p : Packed) : Bool := p.size = 0

/-- The byte in which the entry at `index` is. -/
def byteIndex (w : Width) (index : Nat) : Nat := index * w.bits / 8

/-- How many bits of that byte are below the entry at `index`. -/
def shift (w : Width) (index : Nat) : Nat := index * w.bits % 8

/-- The byte of an entry of the list is one of its bytes. -/
theorem byteIndex_lt {p : Packed} {index : Nat} (h : index < p.size) :
    byteIndex p.width index < p.bytes.size := by
  unfold size at h
  unfold byteIndex
  have := p.width.bits_mul_perByte
  rw [Nat.div_lt_iff_lt_mul (by decide), ← this, Nat.mul_comm p.width.bits, ← Nat.mul_assoc]
  exact Nat.mul_lt_mul_of_pos_right h p.width.bits_pos

/-! ## Lists of a given size -/

/-- A byte that is being filled with one value. -/
structure Filling where
  /-- The byte so far. -/
  byte : UInt8
  /-- How many of its bits are filled, from the lowest up. -/
  shift : UInt8
  deriving DecidableEq

namespace Filling

/-- The byte with the value above the bits that are filled. -/
def round (w : Width) (value : UInt8) (f : Filling) : Filling :=
  ⟨f.byte ||| value <<< f.shift, f.shift + w.bits.toUInt8⟩

/-- A round does not go beyond what eight bits count. -/
theorem toNat_shift_round (w : Width) (value : UInt8) {f : Filling} (h : f.shift < 8) :
    (f.round w value).shift.toNat = f.shift.toNat + w.bits := by
  have hshift : f.shift.toNat < 8 := UInt8.lt_iff_toNat_lt.1 h
  have hbits : w.bits.toUInt8.toNat = w.bits ∧ w.bits ≤ 8 := by cases w <;> decide
  rw [round, UInt8.toNat_add, hbits.1, Nat.mod_eq_of_lt (by omega)]

/-- The byte after all rounds: there is one as long as there are bits left to fill. -/
def complete (w : Width) (value : UInt8) (f : Filling) : Filling :=
  if f.shift < 8 then complete w value (f.round w value) else f
termination_by 8 - f.shift.toNat
decreasing_by
  next h =>
    have hshift : f.shift.toNat < 8 := UInt8.lt_iff_toNat_lt.1 h
    have hbits := w.bits_pos
    rw [toNat_shift_round w value h]
    omega

end Filling

/-- The byte in which every entry has the value `value`. -/
def spread (w : Width) (value : UInt8) : UInt8 := (Filling.complete w value ⟨0, 0⟩).byte

/-- Refuse a value that does not fit into an entry. -/
def checkValue (w : Width) (value : UInt8) : Except Error Unit :=
  if w.mask < value then .error (.valueTooLarge value w.mask) else .ok ()

/-- As many bytes of one value as `n`, after those of `bytes`. -/
def fill (byte : UInt8) : (n : Nat) → ByteArray → ByteArray
  | 0, bytes => bytes
  | n + 1, bytes => fill byte n (bytes.push byte)

/-- The list of `entries` zeros, which have to fill whole bytes, one at least. -/
def zeros (w : Width) (entries : Nat) : Except Error Packed :=
  if entries = 0 ∨ entries % w.perByte ≠ 0 then .error (.invalidSize entries w.perByte)
  else .ok ⟨w, fill 0 (entries / w.perByte) .empty⟩

/-- The list of `entries` times `value`. -/
def replicate (w : Width) (entries : Nat) (value : UInt8) : Except Error Packed := do
  let p ← zeros w entries
  checkValue w value
  return ⟨w, fill (spread w value) p.bytes.size .empty⟩

/-! ## Entries -/

/-- The entry of width `w` that lies `shift` bits above the lowest of a byte. -/
def field (w : Width) (byte : UInt8) (shift : Nat) : UInt8 := (byte >>> shift.toUInt8) &&& w.mask

/-- A byte whose entry at `shift` is replaced by `value`. -/
def putField (w : Width) (byte : UInt8) (shift : Nat) (value : UInt8) : UInt8 :=
  (byte &&& ~~~(w.mask <<< shift.toUInt8)) ||| (value <<< shift.toUInt8)

/-- The entry at an index that is known to be one of the list. -/
def entry (p : Packed) (index : Nat) (h : index < p.size) : UInt8 :=
  field p.width (p.bytes.get (byteIndex p.width index) (byteIndex_lt h)) (shift p.width index)

/-- The entry at `index`. -/
def get (p : Packed) (index : Nat) : Except Error UInt8 :=
  if h : index < p.size then .ok (p.entry index h) else .error (.outOfRange index p.size)

/-- The list with `value` in the place of an entry. -/
def put (p : Packed) (index : Nat) (h : index < p.size) (value : UInt8) : Packed :=
  let byte := p.bytes.get (byteIndex p.width index) (byteIndex_lt h)
  ⟨p.width, p.bytes.set (byteIndex p.width index)
    (putField p.width byte (shift p.width index) value) (byteIndex_lt h)⟩

/-- The list with `value` at `index`. A missing entry is refused before a value
    that does not fit. -/
def set (p : Packed) (index : Nat) (value : UInt8) : Except Error Packed :=
  if h : index < p.size then (checkValue p.width value).map fun _ => p.put index h value
  else .error (.outOfRange index p.size)

/-- The entry at `index`, if there is one. -/
def get? (p : Packed) (index : Nat) : Option UInt8 := (p.get index).toOption

/-- All entries. -/
def toList (p : Packed) : List UInt8 := List.ofFn fun i : Fin p.size => p.entry i.1 i.2

/-! ## Encoded lists -/

/-- The list of an encoded list. -/
def ofEncoded (w : Width) (encoded : String) : Except Error Packed := do
  return ⟨w, ← decodePacked encoded⟩

/-- The compressed list. -/
def toCompressed (p : Packed) : ByteArray := deflate p.bytes

/-- The encoded list. -/
def toEncoded (p : Packed) : String := encodePacked p.bytes

/-! ## Sizes -/

@[simp] theorem size_fill (byte : UInt8) (n : Nat) (bytes : ByteArray) :
    (fill byte n bytes).size = bytes.size + n := by
  induction n generalizing bytes with
  | zero => rfl
  | succ n ih =>
    rw [fill, ih, ByteArray.size_push]
    omega

/-- A new list has the entries that were asked for. -/
theorem size_of_zeros {w : Width} {entries : Nat} {p : Packed} (h : zeros w entries = .ok p) :
    p.size = entries := by
  unfold zeros at h
  split at h
  · simp at h
  · rename_i hn
    simp only [not_or, Decidable.not_not] at hn
    simp only [Except.ok.injEq] at h
    subst h
    simp only [size, size_fill, ByteArray.size_empty, Nat.zero_add]
    exact Nat.div_mul_cancel (Nat.dvd_of_mod_eq_zero hn.2)

/-- Replacing a byte keeps the number of bytes. -/
theorem size_replaced (bytes : ByteArray) (i : Nat) (byte : UInt8) (h : i < bytes.size) :
    (bytes.set i byte h).size = bytes.size := by
  cases bytes
  exact Array.size_set h

theorem size_put (p : Packed) (index : Nat) (h : index < p.size) (value : UInt8) :
    (p.put index h value).size = p.size :=
  congrArg (· * p.width.perByte) (size_replaced p.bytes _ _ _)

end Packed

end StatusList
