import StatusList.Flate.Match
import StatusList.Flate.Weights

/-!
# Deflating

Two ways to write a byte string as a deflate stream: `stored`, which keeps every
byte as it is, and `coded`, which looks for repeats. A coded stream is a series of
*blocks*: a short one has the codes that need no description, any other one codes
that fit its symbols, or its bytes as they are where that is not longer.
-/

namespace StatusList.Flate

/-! ## Stored blocks -/

/-- The most bytes of a stored block. -/
def longestStored : Nat := 65535

/-- The lowest and the highest byte of a number of two bytes. -/
def twoBytes (n : Nat) : List UInt8 := [n.toUInt8, (n / 256).toUInt8]

/-- The bytes before those of a stored block of `length` bytes. -/
def storedHead (last : Bool) (length : Nat) : List UInt8 :=
  last.toUInt8 :: twoBytes length ++ twoBytes (0xFFFF - length)

/-- The bytes from `start` on as stored blocks, after those in `out`. -/
def storedFrom (raw : ByteArray) (start : Nat) (out : ByteArray) : ByteArray :=
  if start + longestStored < raw.size then
    storedFrom raw (start + longestStored)
      (out ++ (storedHead false longestStored).toByteArray
        ++ raw.extract start (start + longestStored))
  else
    out ++ (storedHead true (raw.size - start)).toByteArray ++ raw.extract start raw.size
termination_by raw.size - start
decreasing_by simp only [longestStored] at *; omega

/-- The stream of stored blocks. -/
def stored (raw : ByteArray) : ByteArray := storedFrom raw 0 .empty

/-! ## Writing bits -/

/-- A stream under construction. -/
structure BitSink where
  /-- The whole bytes so far. -/
  bytes : ByteArray
  /-- The bits of the byte that is not whole yet. -/
  pending : Nat
  /-- The number of those bits. -/
  count : Nat

namespace BitSink

/-- The empty stream. -/
def empty : BitSink := ⟨.empty, 0, 0⟩

/-- Move whole bytes out of the pending bits. The fuel bounds their number. -/
def settle : (fuel : Nat) → BitSink → BitSink
  | 0, s => s
  | fuel + 1, s =>
    if s.count < 8 then s
    else settle fuel ⟨s.bytes.push s.pending.toUInt8, s.pending / 256, s.count - 8⟩

/-- Write a number of `n` bits, the lowest first. -/
def putBits (s : BitSink) (n value : Nat) : BitSink :=
  settle n ⟨s.bytes, s.pending + value <<< s.count, s.count + n⟩

/-- The bytes of the stream, the last filled up with zeros. -/
def toBytes (s : BitSink) : ByteArray :=
  if s.count = 0 then s.bytes else s.bytes.push s.pending.toUInt8

end BitSink

/-- The string of each symbol of a code as a number, its first bit the lowest,
    and the length of the string. -/
def strings (lengths : Array Nat) : Array (Nat × Nat) :=
  (Tree.canonical lengths.toList).foldl
    (fun strings (symbol, code, length) => strings.setIfInBounds symbol (flip length code, length))
    (.replicate lengths.size (0, 0))
where
  /-- The lowest `n` bits in the opposite order. -/
  flip : (n : Nat) → Nat → Nat
    | 0, _ => 0
    | n + 1, code => (code % 2) <<< n + flip n (code / 2)

/-- Write a symbol. -/
def BitSink.putSymbol (s : BitSink) (strings : Array (Nat × Nat)) (symbol : Nat) : BitSink :=
  let (code, length) := strings.getD symbol (0, 0)
  s.putBits length code

/-- Fill up the byte that is not whole yet with zeros. -/
def BitSink.align (s : BitSink) : BitSink :=
  if s.count = 0 then s else s.putBits (8 - s.count) 0

/-! ## Symbols -/

/-- The symbol of the table `ranges` that stands for `value`: the latest that is
    not beyond it. -/
def symbolOf (ranges : Array (Nat × Nat)) (value : Nat) : Nat :=
  (ranges.findIdx? fun (least, _) => value < least).getD ranges.size - 1

/-- The symbol of a length and the extra bits that follow it. -/
def lengthSymbol (length : Nat) : Nat × Nat × Nat :=
  let symbol := symbolOf lengthRanges length
  let (least, extra) := lengthRanges.getD symbol (0, 0)
  (257 + symbol, extra, length - least)

/-- The symbol of a distance and the extra bits that follow it. -/
def distanceSymbol (distance : Nat) : Nat × Nat × Nat :=
  let symbol := symbolOf distanceRanges distance
  let (least, extra) := distanceRanges.getD symbol (0, 0)
  (symbol, extra, distance - least)

/-- How often each symbol of the two codes occurs in a block. -/
def weigh (pieces : Array Piece) : Array Nat × Array Nat :=
  pieces.foldl
    (fun (literals, distances) piece => match piece with
      | .literal byte => (literals.modify byte.toNat (· + 1), distances)
      | .copy ⟨length, distance⟩ =>
        (literals.modify (lengthSymbol length).1 (· + 1),
          distances.modify (distanceSymbol distance).1 (· + 1)))
    ((Array.replicate 286 0).setIfInBounds endOfBlock 1, .replicate 30 0)

/-- Write pieces and the end of their block, by codes of the given lengths. -/
def putPieces (s : BitSink) (literals distances : Array Nat) (pieces : Array Piece) : BitSink :=
  let literals := strings literals
  let distances := strings distances
  let s := pieces.foldl
    (fun s piece => match piece with
      | .literal byte => s.putSymbol literals byte.toNat
      | .copy ⟨length, distance⟩ =>
        let (symbol, n, extra) := lengthSymbol length
        let s := (s.putSymbol literals symbol).putBits n extra
        let (symbol, n, extra) := distanceSymbol distance
        (s.putSymbol distances symbol).putBits n extra)
    s
  s.putSymbol literals endOfBlock

/-! ## Descriptions of codes -/

/-- The symbols for a run of `count` zeros, each with its extra bits. The fuel is the
    count. -/
def tellZeros : (fuel count : Nat) → List (Nat × Nat × Nat)
  | 0, _ => []
  | fuel + 1, count =>
    if 138 ≤ count then (18, 7, 127) :: tellZeros fuel (count - 138)
    else if 11 ≤ count then [(18, 7, count - 11)]
    else if 3 ≤ count then [(17, 3, count - 3)]
    else .replicate count (0, 0, 0)

/-- The symbols for `count` repeats of a length. The fuel is the count. -/
def tellRepeats (length : Nat) : (fuel count : Nat) → List (Nat × Nat × Nat)
  | 0, _ => []
  | fuel + 1, count =>
    if 6 ≤ count then (16, 2, 3) :: tellRepeats length fuel (count - 6)
    else if 3 ≤ count then [(16, 2, count - 3)]
    else .replicate count (length, 0, 0)

/-- The symbols for the lengths of two codes, each with its extra bits: runs of
    zeros and repeats are told at once. -/
def lengthSymbols (lengths : List Nat) : List (Nat × Nat × Nat) :=
  (lengths.splitBy (· == ·)).flatMap fun run =>
    match run with
    | [] => []
    | 0 :: _ => tellZeros run.length run.length
    | length :: repeats => (length, 0, 0) :: tellRepeats length repeats.length repeats.length

/-- The lengths up to the last that is not zero, but at least `least` of them. -/
def withoutTail (least : Nat) (lengths : List Nat) : List Nat :=
  lengths.take (max least (lengths.reverse.dropWhile (· = 0)).length)

/-- Write the description of two codes. -/
def putCodes (s : BitSink) (literals distances : Array Nat) : BitSink :=
  let literals := withoutTail 257 literals.toList
  let distances := withoutTail 1 distances.toList
  let symbols := lengthSymbols (literals ++ distances)
  let weights := symbols.foldl (fun weights (symbol, _, _) => weights.modify symbol (· + 1))
    (Array.replicate 19 0)
  let lengths := lengthsOfWeights 7 weights
  let given := withoutTail 4 (lengthOrder.map fun symbol => lengths.getD symbol 0)
  let s := ((s.putBits 5 (literals.length - 257)).putBits 5 (distances.length - 1)).putBits 4
    (given.length - 4)
  let s := given.foldl (fun s length => s.putBits 3 length) s
  let strings := strings lengths
  symbols.foldl (fun s (symbol, n, extra) => (s.putSymbol strings symbol).putBits n extra) s

/-! ## Blocks -/

/-- A block under construction. -/
structure Block where
  /-- The place of its first byte. -/
  start : Nat
  /-- The number of its bytes. -/
  size : Nat
  /-- The pieces that tell them. -/
  pieces : Array Piece
  /-- How much the pieces take up, where a copy takes up as much as three bytes. -/
  weight : Nat

namespace Block

/-- The block of no bytes from `start` on. -/
def empty (start : Nat) : Block := ⟨start, 0, #[], 0⟩

/-- A block with one more piece. -/
def add : Block → Piece → Block
  | ⟨start, size, pieces, weight⟩, .literal byte =>
    ⟨start, size + 1, pieces.push (.literal byte), weight + 1⟩
  | ⟨start, size, pieces, weight⟩, .copy copy =>
    ⟨start, size + copy.length, pieces.push (.copy copy), weight + 3⟩

/-- What the pieces take up, with a byte for every eight of them. -/
def room (b : Block) : Nat := 1 + b.weight + b.pieces.size / 8

/-- Whether a block ends: its pieces take up all room there is, or they are many and
    save little. -/
def isFull (b : Block) : Bool :=
  65528 < b.room ∨ (31744 < b.size ∧ b.size ≤ b.room * 115 / 128)

/-- Write the bytes of a block as they are. -/
def putStored (b : Block) (raw : ByteArray) (s : BitSink) : BitSink :=
  let s := ((s.putBits 2 0).align.putBits 16 b.size).putBits 16 (0xFFFF - b.size)
  { s with bytes := s.bytes ++ raw.extract b.start (b.start + b.size) }

/-- Write the pieces of a block by the codes that need no description. -/
def putFixed (b : Block) (s : BitSink) : BitSink :=
  putPieces (s.putBits 2 1) fixedLiterals.toArray fixedDistances.toArray b.pieces

/-- Write the pieces of a block by codes that fit them. -/
def putFitted (b : Block) (s : BitSink) : BitSink :=
  let (literals, distances) := weigh b.pieces
  let literals := lengthsOfWeights maxCodeLength literals
  let distances := lengthsOfWeights maxCodeLength distances
  putPieces (putCodes (s.putBits 2 2) literals distances) literals distances b.pieces

/-- Write a block, given how many bytes of the byte string have been looked at. The
    bytes can be kept as they are while they are in the window. -/
def put (b : Block) (raw : ByteArray) (seen : Nat) (last : Bool) (s : BitSink) : BitSink :=
  let ⟨bytes, pending, count⟩ := s.putBits 1 last.toNat
  -- Only what this block adds is compared, so the bytes before it are set aside.
  let s := BitSink.mk .empty pending count
  let coded := if b.size < 48 then b.putFixed s else b.putFitted s
  let isLong := 32 < b.size ∧ b.size ≤ coded.bytes.size + 1 ∧ seen ≤ b.start + windowSize
  let best := if isLong then b.putStored raw s else coded
  ⟨bytes ++ best.bytes, best.pending, best.count⟩

end Block

/-- Write the bytes from `i` on as blocks, of which `block` is under construction.
    `links` are the places up to the `linked` latest, and `waiting` is the copy at the
    place before. -/
def putFrom (raw : ByteArray) (i linked : Nat) (links : Links) (waiting : Option Copy)
    (block : Block) (s : BitSink) : BitSink :=
  if i < raw.size then
    let ahead := min longestCopy (raw.size - i)
    -- A place can be linked if the three bytes of its hash are among those ahead.
    let ready := i + ahead - 2
    let links := links.addFrom raw (ready - linked) linked
    let found := links.search? raw i ahead (waiting.elim 2 Copy.length)
    let telling := tell raw i waiting found
    let block := telling.pieces.foldl Block.add block
    let next := i + 1 + telling.skipped
    if block.isFull then
      putFrom raw next (max linked ready) links telling.waiting (.empty (block.start + block.size))
        (block.put raw (i + ahead) false s)
    else
      putFrom raw next (max linked ready) links telling.waiting block s
  else
    block.put raw raw.size true s
termination_by raw.size - i

/-- The stream of coded blocks. -/
def coded (raw : ByteArray) : ByteArray :=
  (putFrom raw 0 0 .empty none (.empty 0) .empty).toBytes

end StatusList.Flate
