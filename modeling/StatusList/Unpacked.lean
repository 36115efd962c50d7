import StatusList.Packed

/-!
# Unpacked lists

A second way to see the entries of a packed list, without an index for each: the
bytes are read bit by bit from the highest, which gives the entries of every
byte in the opposite order, and each entry is put where it belongs in its group.

* `unpack`: all entries of a byte string, one byte for each.
-/

namespace StatusList

/-- The entry of width `w` that lies `offset` bits below the highest of a byte. -/
def fieldFromTop (w : Width) (byte : UInt8) (offset : Nat) : UInt8 :=
  (byte >>> (8 - w.bits - offset).toUInt8) &&& w.mask

/-- The place of the entry that comes as number `i` when the bytes are read from
    their highest bits: the opposite place inside its byte. -/
def placeOf (w : Width) (i : Nat) : Nat :=
  i / w.perByte * w.perByte + (w.perByte - 1 - i % w.perByte)

/-- Put `n` more entries, from number `i` on, into `out`; `offset` is the number
    of bits of the byte that have been read. -/
def unpackFrom (w : Width) (raw : ByteArray) : (n i offset : Nat) → ByteArray → ByteArray
  | 0, _, _, out => out
  | n + 1, i, offset, out =>
    let byte := if h : i * w.bits / 8 < raw.size then raw.get (i * w.bits / 8) h else 0
    let position := placeOf w i
    let out :=
      if h : position < out.size then out.set position (fieldFromTop w byte offset) h else out
    unpackFrom w raw n (i + 1) ((offset + w.bits) % 8) out

/-- All entries of a byte string. -/
def unpack (w : Width) (raw : ByteArray) : ByteArray :=
  let total := raw.size * 8 / w.bits
  unpackFrom w raw total 0 0 (Packed.fill 0 total .empty)

/-- All entries of an encoded list. -/
def decodeUnpacked (w : Width) (encoded : String) : Except Error ByteArray := do
  return unpack w (← decodePacked encoded)

end StatusList
