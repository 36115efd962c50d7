/-!
# Bits of a stream

A compressed stream is a sequence of bits, the lowest bit of each byte first. A
*bit source* is a byte string with the number of bits already taken from it,
and a *decoder* takes bits off a source or fails with a *fault*.

* `BitSource.bits`: the bits still to come;
* `takeBits`, `takeBytes`: the numbers that the next bits or bytes are.
-/

namespace StatusList.Flate

/-- Why a stream gives no bytes. -/
inductive Fault where
  /-- The bits have no meaning. -/
  | corrupt
  /-- The bits end before the stream does. -/
  | truncated
  /-- More bytes came out than were asked for. -/
  | full
  deriving DecidableEq, Repr, Inhabited

/-- A byte string whose first `taken` bits have been read. -/
structure BitSource where
  /-- The whole byte string. -/
  bytes : ByteArray
  /-- The number of bits read so far. -/
  taken : Nat

/-- A step that takes bits off a source, or fails. -/
abbrev Decoder := StateT BitSource (Except Fault)

namespace BitSource

/-- The source of which nothing has been read. -/
def ofBytes (bytes : ByteArray) : BitSource := ⟨bytes, 0⟩

/-- The number of bits still to come. -/
def left (s : BitSource) : Nat := s.bytes.size * 8 - s.taken

/-- The next bit and the source after it. -/
def next? (s : BitSource) : Option (Bool × BitSource) :=
  if h : s.taken / 8 < s.bytes.size then
    some ((s.bytes.get (s.taken / 8) h).toNat.testBit (s.taken % 8), ⟨s.bytes, s.taken + 1⟩)
  else
    none

/-- The source from the next whole byte on. -/
def aligned (s : BitSource) : BitSource := ⟨s.bytes, (s.taken + 7) / 8 * 8⟩

/-- The index of the byte that the next bit is in. -/
def byteIndex (s : BitSource) : Nat := s.taken / 8

/-- The bits of a byte string, in the order in which a stream has them. -/
def bitsOf (bytes : List UInt8) : List Bool :=
  bytes.flatMap fun b => (List.range 8).map b.toNat.testBit

/-- The bits still to come. -/
def bits (s : BitSource) : List Bool := (bitsOf s.bytes.data.toList).drop s.taken

end BitSource

/-! ## Reading fields -/

/-- Take one bit. -/
def takeBit : Decoder Bool := fun s =>
  match s.next? with
  | some r => .ok r
  | none => .error .truncated

/-- Take a number of `n` bits, the lowest first. -/
def takeBits : Nat → Decoder Nat
  | 0 => pure 0
  | n + 1 => do
    let b ← takeBit
    let high ← takeBits n
    return b.toNat + 2 * high

/-- Drop the rest of a byte of which bits have been taken. -/
def align : Decoder Unit := modify BitSource.aligned

/-- Take a number of `n` bytes, the highest first, from a byte boundary. -/
def takeBytes (n : Nat) : Decoder Nat :=
  (List.range n).foldlM (fun high _ => return high * 256 + (← takeBits 8)) 0

end StatusList.Flate
