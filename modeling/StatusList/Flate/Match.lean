import StatusList.Flate.Inflate

/-!
# Repeats

Before it is coded, a byte string becomes a list of *pieces*: single bytes, and
copies of what came a certain distance earlier. The places at which three bytes
have the same hash are linked, each to the latest one before it. The search for a
copy goes along these *links*, so far as they are not worth it any more, and keeps
the longest copy that it meets.

A copy is not told at once: if a longer one begins at the next byte, that byte's
predecessor is told alone and the longer copy takes the place of the other.

* `Links.search?`: the longest copy at a place, if one is worth it;
* `tell`: the pieces that are settled at a place.

Places are linked modulo 65536, and a link to zero leads nowhere.
-/

namespace StatusList.Flate

/-- The `length` bytes that also stand `distance` bytes earlier. -/
structure Copy where
  /-- The number of bytes. -/
  length : Nat
  /-- How far back they are. -/
  distance : Nat
  deriving DecidableEq, Repr, Inhabited

/-- A part of a byte string as a coded block tells it. -/
inductive Piece where
  /-- One byte. -/
  | literal (byte : UInt8)
  /-- What came earlier. -/
  | copy (copy : Copy)
  deriving Repr, Inhabited

/-- The shortest and the longest copy. -/
def shortestCopy : Nat := 3

@[inherit_doc shortestCopy]
def longestCopy : Nat := 258

/-- How many bytes are in reach of a copy, with those that it may tell. -/
def windowSize : Nat := 32768

/-- The byte at `i`, zero past the end. -/
@[inline] def byteAt (raw : ByteArray) (i : Nat) : UInt8 :=
  if h : i < raw.size then raw.get i h else 0

/-- The number of bytes, at most `most`, that are the same from `i` on and from
    `j` on. -/
def agreement (raw : ByteArray) (i j : Nat) (most : Nat) : Nat :=
  go most 0
where
  /-- Count on from `n`. -/
  go : Nat → Nat → Nat
    | 0, n => n
    | left + 1, n => if byteAt raw (i + n) = byteAt raw (j + n) then go left (n + 1) else n

/-! ## Links -/

/-- The places of a byte string so far. -/
structure Links where
  /-- The latest place of each hash. -/
  latest : Array Nat
  /-- The place before each place of the window. -/
  before : Array Nat

namespace Links

/-- No places. -/
def empty : Links := ⟨.replicate windowSize 0, .replicate windowSize 0⟩

/-- The hash of the three bytes from `i` on. -/
def hashAt (raw : ByteArray) (i : Nat) : Nat :=
  ((byteAt raw i).toNat <<< 10 ^^^ (byteAt raw (i + 1)).toNat <<< 5
    ^^^ (byteAt raw (i + 2)).toNat) % windowSize

/-- Add the place `i`. -/
def add (raw : ByteArray) (i : Nat) : Links → Links
  | ⟨latest, before⟩ =>
    let hash := hashAt raw i
    let previous := latest.getD hash 0
    ⟨latest.setIfInBounds hash (i % 65536), before.setIfInBounds (i % windowSize) previous⟩

/-- Add `count` places from `i` on. -/
def addFrom (raw : ByteArray) : (count i : Nat) → Links → Links
  | 0, _, links => links
  | count + 1, i, links => addFrom raw count (i + 1) (links.add raw i)

/-- Whether the bytes at `i` and `i + 1` are those at `j` and `j + 1`. -/
@[inline] def agreeAt (raw : ByteArray) (i j : Nat) : Bool :=
  byteAt raw i = byteAt raw j && byteAt raw (i + 1) = byteAt raw (j + 1)

/-- The longest copy at `i`, which is longer than `best`, or `best`. It tells `most`
    bytes at most and is in `reach`. The search is at `place`; it goes along `hops`
    links before it counts a round, of which `rounds` are left. A place counts only if
    it agrees where a longer copy has to. The fuel bounds the links and rounds. -/
def searchFrom (raw : ByteArray) (links : Links) (i most reach : Nat) :
    (fuel rounds hops place : Nat) → Copy → Copy
  | 0, _, _, _, best => best
  | fuel + 1, rounds, 0, place, best =>
    if rounds ≤ 1 then best else searchFrom raw links i most reach fuel (rounds - 1) 3 place best
  | fuel + 1, rounds, hops + 1, place, best =>
    let next := links.before.getD place 0
    let distance := (i % 65536 + 65536 - next) % 65536
    if next = 0 ∨ reach < distance ∨ distance = 0 then best
    else
      let place := next % windowSize
      let j := i - distance
      if agreeAt raw (i + best.length - 1) (j + best.length - 1) then
        let length := if agreeAt raw i j then agreement raw i j most else 0
        if best.length < length then
          if length = most then ⟨length, distance⟩
          else searchFrom raw links i most reach fuel rounds 0 place ⟨length, distance⟩
        else searchFrom raw links i most reach fuel rounds 0 place best
      else searchFrom raw links i most reach fuel rounds hops place best

/-- How many rounds a search takes that has to find more than `least` bytes. -/
def roundsFor (least : Nat) : Nat := if 32 ≤ least then 65 else 257

/-- The longest copy at `i` that tells more than `least` of the `ahead` bytes there.
    A short copy from afar is not worth it. Nor is one from the first place of a
    window. -/
def search? (raw : ByteArray) (links : Links) (i ahead least : Nat) : Option Copy :=
  if ahead ≤ least then none
  else
    let rounds := roundsFor least
    let reach := min i (windowSize - ahead)
    let best := searchFrom raw links i ahead reach (4 * rounds) rounds 0 (i % windowSize) ⟨least, 0⟩
    if best.distance = 0 ∨ (best.length = shortestCopy ∧ 8192 ≤ best.distance)
        ∨ i % windowSize = best.distance then none
    else some best

end Links

/-! ## Pieces -/

/-- The length from which on a copy is told at once. -/
def longCopy : Nat := 128

/-- What is settled at a place. -/
structure Telling where
  /-- The pieces. -/
  pieces : List Piece
  /-- The copy that waits for the next place. -/
  waiting : Option Copy
  /-- How many places are passed over before the next one. -/
  skipped : Nat

/-- What is settled at `i`, where `waiting` is the copy at the place before and
    `found` the one at `i` that is longer. -/
def tell (raw : ByteArray) (i : Nat) (waiting found : Option Copy) : Telling :=
  match waiting, found with
  | none, none => ⟨[.literal (byteAt raw i)], none, 0⟩
  | none, some copy =>
    if longCopy ≤ copy.length then ⟨[.copy copy], none, copy.length - 1⟩ else ⟨[], some copy, 0⟩
  -- The copy that waited began at the place before and covers this one as well.
  | some copy, none => ⟨[.copy copy], none, copy.length - 2⟩
  | some _, some copy =>
    let single := Piece.literal (byteAt raw (i - 1))
    if longCopy ≤ copy.length then ⟨[single, .copy copy], none, copy.length - 1⟩
    else ⟨[single], some copy, 0⟩

end StatusList.Flate
