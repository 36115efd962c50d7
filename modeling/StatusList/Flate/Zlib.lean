import StatusList.Bytes
import StatusList.Flate.Deflate

/-!
# Checked streams

A zlib stream is a deflate stream between a header of two bytes and the Adler-32
checksum of the bytes it stands for, the highest byte first.

* `unpack`: the bytes of a stream, at most as many as `limit`;
* `pack`: a stream of given bytes. It is the coded stream if that gives the bytes
  back and is no longer, and the stored stream otherwise.

That what is packed can be unpacked again is granted of a compressor, and here it is
so by construction: `pack` tries its coded stream (`givesBack`) and has the stored
one to fall back on, of which it is proved. So nothing depends on how repeats are
looked for or codes are fitted. Of `unpack` nothing is granted in this way.
-/

namespace StatusList.Flate

/-! ## Checksum -/

/-- The modulus of the checksum: the largest prime below 2 ^ 16. -/
def adlerModulus : UInt32 := 65521

/-- The two running sums of the checksum. -/
structure Adler where
  /-- One more than the sum of the bytes. -/
  sum : UInt32
  /-- The sum of all values of `sum`. -/
  sums : UInt32

namespace Adler

/-- The sums before the first byte. -/
def start : Adler := ⟨1, 0⟩

/-- The sums after one more byte. -/
def step (a : Adler) (byte : UInt8) : Adler :=
  let sum := (a.sum + byte.toUInt32) % adlerModulus
  ⟨sum, (a.sums + sum) % adlerModulus⟩

/-- The checksum. -/
def value (a : Adler) : Nat := a.sums.toNat * 65536 + a.sum.toNat

end Adler

/-- The Adler-32 checksum of a byte string. -/
def adler32 (raw : ByteArray) : Nat := (raw.foldl Adler.step Adler.start).value

/-! ## Reading -/

/-- Whether two bytes are a header: the method is 8, the window has at most
    2 ^ 15 bytes, no dictionary is asked for, and the two bytes as one number are
    a multiple of 31. -/
def isHeader (method flags : Nat) : Bool :=
  method % 16 = 8 ∧ method / 16 ≤ 7 ∧ flags / 32 % 2 = 0 ∧ (method * 256 + flags) % 31 = 0

/-- Take a stream of at most `limit` bytes. -/
def takeStream (limit : Nat) : Decoder ByteArray := do
  let method ← takeBits 8
  let flags ← takeBits 8
  if !isHeader method flags then
    throw .corrupt
  let raw ← inflate limit
  align
  if (← takeBytes 4) ≠ adler32 raw then
    throw .corrupt
  return raw

/-- The bytes that the stream at the beginning of `stream` stands for, of which
    there may be `limit`. What follows the stream is not looked at. -/
def unpack (limit : Nat) (stream : ByteArray) : Except Fault ByteArray :=
  (takeStream limit).run' (.ofBytes stream)

/-! ## Writing -/

/-- The header of every stream that is written. -/
def header : List UInt8 := [0x78, 0xDA]

/-- A number of four bytes, the highest first. -/
def fourBytes (n : Nat) : List UInt8 :=
  [(n >>> 24).toUInt8, (n >>> 16).toUInt8, (n >>> 8).toUInt8, n.toUInt8]

/-- A deflate stream of `raw` with header and checksum. -/
def frame (raw deflated : ByteArray) : ByteArray :=
  header.toByteArray ++ deflated ++ (fourBytes (adler32 raw)).toByteArray

/-- Whether a stream gives `raw` back, to be asked before it is given away. -/
def givesBack (raw stream : ByteArray) : Bool :=
  match unpack raw.size stream with
  | .ok bytes => bytes = raw
  | .error _ => false

/-- A stream that stands for `raw`. -/
def pack (raw : ByteArray) : ByteArray :=
  let short := frame raw (coded raw)
  let plain := frame raw (stored raw)
  if short.size ≤ plain.size ∧ givesBack raw short then short else plain

end StatusList.Flate
