import StatusList.Flate.Huffman

/-!
# Inflating

A deflate stream is a series of *blocks*. A stored block holds bytes as they
are; a coded block holds symbols of two prefix codes, one for literal bytes and
lengths, one for distances, and stands for the bytes that its literals and
copies of earlier output give.

* `inflate`: the bytes of a stream, at most as many as `limit`, and the source
  after its last block.

What a copy would take from before the first byte of the output is zero.
-/

namespace StatusList.Flate

/-! ## Symbols -/

/-- The symbol that ends a block. -/
def endOfBlock : Nat := 256

/-- For each length symbol from 257 on, the shortest length that it stands for
    and the number of extra bits that follow it. -/
def lengthRanges : Array (Nat × Nat) :=
  #[(3, 0), (4, 0), (5, 0), (6, 0), (7, 0), (8, 0), (9, 0), (10, 0), (11, 1), (13, 1), (15, 1),
    (17, 1), (19, 2), (23, 2), (27, 2), (31, 2), (35, 3), (43, 3), (51, 3), (59, 3), (67, 4),
    (83, 4), (99, 4), (115, 4), (131, 5), (163, 5), (195, 5), (227, 5), (258, 0)]

/-- For each distance symbol, the shortest distance that it stands for and the
    number of extra bits that follow it. -/
def distanceRanges : Array (Nat × Nat) :=
  #[(1, 0), (2, 0), (3, 0), (4, 0), (5, 1), (7, 1), (9, 2), (13, 2), (17, 3), (25, 3), (33, 4),
    (49, 4), (65, 5), (97, 5), (129, 6), (193, 6), (257, 7), (385, 7), (513, 8), (769, 8),
    (1025, 9), (1537, 9), (2049, 10), (3073, 10), (4097, 11), (6145, 11), (8193, 12), (12289, 12),
    (16385, 13), (24577, 13)]

/-- The value of symbol `symbol` of the table `ranges`, with its extra bits. -/
def takeRanged (ranges : Array (Nat × Nat)) (symbol : Nat) : Decoder Nat :=
  match ranges[symbol]? with
  | some (least, extra) => return least + (← takeBits extra)
  | none => throw .corrupt

/-! ## Output -/

/-- Add `byte` to the output, of which there may be `limit` bytes. -/
def emit (limit : Nat) (out : ByteArray) (byte : UInt8) : Except Fault ByteArray :=
  if out.size < limit then .ok (out.push byte) else .error .full

/-- The byte of the output `distance` bytes before its end. -/
def byteBack (out : ByteArray) (distance : Nat) : UInt8 :=
  if h : distance ≤ out.size ∧ 0 < distance then out.get (out.size - distance) (by omega) else 0

/-- Add `length` bytes to the output, each the one that is `distance` bytes
    before it. -/
def copyBack (limit distance : Nat) : (length : Nat) → ByteArray → Except Fault ByteArray
  | 0, out => .ok out
  | n + 1, out => do copyBack limit distance n (← emit limit out (byteBack out distance))

/-- Add `length` bytes of the source as they are, from a byte boundary. -/
def copyStored (limit : Nat) : (length : Nat) → ByteArray → Decoder ByteArray
  | 0, out => pure out
  | n + 1, out => fun s =>
    if h : s.byteIndex < s.bytes.size then do
      let out ← emit limit out (s.bytes.get s.byteIndex h)
      copyStored limit n out ⟨s.bytes, s.taken + 8⟩
    else
      .error .truncated

/-! ## Blocks -/

/-- The two codes of a coded block. -/
structure Codes where
  /-- The code of literal bytes, lengths and the end of the block. -/
  literals : Tree
  /-- The code of distances. -/
  distances : Tree

/-- The codes of the lengths `literals` and `distances`. -/
def Codes.ofLengths (literals distances : List Nat) : Except Fault Codes :=
  match Tree.ofLengths? distances, Tree.ofLengths? literals with
  | some distances, some literals => .ok ⟨literals, distances⟩
  | _, _ => .error .corrupt

/-- The lengths of the literal code that needs no description. -/
def fixedLiterals : List Nat :=
  .replicate 144 8 ++ .replicate 112 9 ++ .replicate 24 7 ++ .replicate 8 8

/-- The lengths of the distance code that needs no description. -/
def fixedDistances : List Nat := .replicate 32 5

/-- The codes that need no description. -/
def fixedCodes : Except Fault Codes := Codes.ofLengths fixedLiterals fixedDistances

/-- The order in which the lengths of the code of lengths are given. -/
def lengthOrder : List Nat := [16, 17, 18, 0, 8, 7, 9, 6, 10, 5, 11, 4, 12, 3, 13, 2, 14, 1, 15]

/-- Take `count` lengths or a few more, coded by `code`, after those already
    read, the latest of which is first. Symbols up to 15 are lengths, 16 repeats
    the latest length and 17 and 18 stand for runs of zeros. -/
def takeLengths (code : Tree) (count : Nat) : (fuel : Nat) → List Nat → Decoder (List Nat)
  | 0, read => if count ≤ read.length then pure read else throw .truncated
  | fuel + 1, read => do
    if count ≤ read.length then
      return read
    match ← code.decode, read with
    | 16, [] => throw .corrupt
    | 16, latest :: _ =>
      takeLengths code count fuel (.replicate (3 + (← takeBits 2)) latest ++ read)
    | 17, _ => takeLengths code count fuel (.replicate (3 + (← takeBits 3)) 0 ++ read)
    | 18, _ => takeLengths code count fuel (.replicate (11 + (← takeBits 7)) 0 ++ read)
    | length, _ => takeLengths code count fuel (length :: read)

/-- Take the description of the codes of a block. -/
def takeCodes : Decoder Codes := do
  let literals := 257 + (← takeBits 5)
  let distances := 1 + (← takeBits 5)
  let given := 4 + (← takeBits 4)
  -- The last two symbols of either code stand for nothing.
  if 286 < literals ∨ 30 < distances then
    throw .corrupt
  let lengths ← (lengthOrder.take given).mapM fun symbol => return (symbol, ← takeBits 3)
  let lengths := (List.range 19).map fun symbol => (lengths.lookup symbol).getD 0
  if !Tree.isComplete lengths then
    throw .corrupt
  let some code := Tree.ofLengths? lengths | throw .corrupt
  let count := literals + distances
  let read ← takeLengths code count count []
  if read.length ≠ count then
    throw .corrupt
  let read := read.reverse
  Codes.ofLengths (read.take literals) (read.drop literals)

/-- Add what the symbols of a coded block stand for, up to its end. The fuel is
    the number of bits left: every symbol takes one at least. -/
def takeSymbols (limit : Nat) (codes : Codes) : (fuel : Nat) → ByteArray → Decoder ByteArray
  | 0, _ => throw .truncated
  | fuel + 1, out => do
    let symbol ← codes.literals.decode
    if symbol < endOfBlock then
      takeSymbols limit codes fuel (← emit limit out symbol.toUInt8)
    else if symbol = endOfBlock then
      return out
    else
      let length ← takeRanged lengthRanges (symbol - 257)
      let distance ← takeRanged distanceRanges (← codes.distances.decode)
      takeSymbols limit codes fuel (← copyBack limit distance length out)

/-- Add the bytes of a coded block. -/
def takeCoded (limit : Nat) (codes : Codes) (out : ByteArray) : Decoder ByteArray := do
  takeSymbols limit codes ((← get).left + 1) out

/-- Add the bytes of a stored block, whose number is given twice, the second
    time with every bit flipped. -/
def takeStored (limit : Nat) (out : ByteArray) : Decoder ByteArray := do
  align
  let length ← takeBits 16
  let check ← takeBits 16
  if length + check ≠ 0xFFFF then
    throw .corrupt
  copyStored limit length out

/-- Add the bytes of one block, and tell whether it is the last. -/
def takeBlock (limit : Nat) (out : ByteArray) : Decoder (Bool × ByteArray) := do
  let last ← takeBit
  let out ← match ← takeBits 2 with
    | 0 => takeStored limit out
    | 1 => takeCoded limit (← fixedCodes) out
    | 2 => takeCoded limit (← takeCodes) out
    | _ => throw .corrupt
  return (last, out)

/-- Add the bytes of all blocks up to the last. The fuel is the number of bits
    left: every block takes one at least. -/
def takeBlocks (limit : Nat) : (fuel : Nat) → ByteArray → Decoder ByteArray
  | 0, _ => throw .truncated
  | fuel + 1, out => do
    let (last, out) ← takeBlock limit out
    if last then return out else takeBlocks limit fuel out

/-- The bytes of a stream, of which there may be `limit`. -/
def inflate (limit : Nat) : Decoder ByteArray := do
  takeBlocks limit ((← get).left + 1) .empty

end StatusList.Flate
