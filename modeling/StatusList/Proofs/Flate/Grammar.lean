import StatusList.Flate.Zlib
import StatusList.Proofs.Flate.PrefixCodes

/-!
# Streams by their grammar

Which byte strings are streams, and for which bytes a stream stands, is told here by a grammar,
without a word on how a stream is read: a stream consists of blocks, a coded block of symbols of
its two codes, and the description of the codes of a block of the lengths of their strings.

A copy takes bytes that come before it. In a *valid* stream there are such bytes: no copy reaches
before the beginning of the output. A grammar is more liberal if it lets copies reach into a
*window* of zeros that is thought to stand before the output (`IsStream window`), and valid
streams are those of the window of size zero. A larger window does not change what a stream of a
smaller one stands for (`IsStream.mono`).

The size of the window that a header announces is not held against the copies.
-/

namespace StatusList.Flate

open BitSource (bitsOf)

/-! ## Output -/

/-- Each of the bytes `new`, which come after `before`, is the one that is `distance` bytes before
    it. -/
def IsCopy (before : List UInt8) (distance : Nat) (new : List UInt8) : Prop :=
  distance ≤ before.length ∧
    ∀ i < new.length, new[i]? = (before ++ new)[before.length + i - distance]?

/-- The output with a window of zeros before it. -/
def windowed (window : Nat) (out : List UInt8) : List UInt8 := .replicate window 0 ++ out

/-! ## Symbols -/

/-- Bits are those that come after a symbol of a table to pick a value of its range. -/
def IsExtra (ranges : Array (Nat × Nat)) (symbol : Nat) (bits : List Bool) (value : Nat) : Prop :=
  ∃ least extra more, ranges[symbol]? = some (least, extra) ∧ more < 2 ^ extra ∧
    bits = lowestFirst extra more ∧ value = least + more

/-- The strings of a code, with their symbols. -/
abbrev Code := Nat → List Bool → Prop

/-- Bits are symbols of two codes up to the end of a block, which come after the output `out` and
    stand for `new`. -/
inductive AreSymbols (window : Nat) (literals distances : Code) :
    (out : List UInt8) → (bits : List Bool) → (new : List UInt8) → Prop where
  /-- The block ends. -/
  | stop {out : List UInt8} {bits : List Bool} (h : literals endOfBlock bits) :
      AreSymbols window literals distances out bits []
  /-- A byte comes as it is. -/
  | literal {out new : List UInt8} {byte : UInt8} {string bits : List Bool}
      (h : literals byte.toNat string)
      (hrest : AreSymbols window literals distances (out ++ [byte]) bits new) :
      AreSymbols window literals distances out (string ++ bits) (byte :: new)
  /-- A length comes and then a distance, for bytes that are copied. -/
  | copy {out copied new : List UInt8} {length symbol distance : Nat}
      {string extra string' extra' bits : List Bool} (h : literals (endOfBlock + 1 + length) string)
      (hlength : IsExtra lengthRanges length extra copied.length) (h' : distances symbol string')
      (hdistance : IsExtra distanceRanges symbol extra' distance)
      (hcopy : IsCopy (windowed window out) distance copied)
      (hrest : AreSymbols window literals distances (out ++ copied) bits new) :
      AreSymbols window literals distances out (string ++ (extra ++ (string' ++ (extra' ++ bits))))
        (copied ++ new)

/-! ## Descriptions of codes -/

/-- Bits are symbols of the code of lengths, which come after the lengths `read` and stand for the
    lengths `new`. -/
inductive AreRuns (code : Code) :
    (read : List Nat) → (bits : List Bool) → (new : List Nat) → Prop where
  | nil (read : List Nat) : AreRuns code read [] []
  /-- A length comes as it is. -/
  | length {read new : List Nat} {l : Nat} {string bits : List Bool} (hl : l < 16)
      (h : code l string) (hrest : AreRuns code (read ++ [l]) bits new) :
      AreRuns code read (string ++ bits) (l :: new)
  /-- The latest length comes some more times. -/
  | again {read new : List Nat} {latest more : Nat} {string bits : List Bool} (h : code 16 string)
      (hlatest : read.getLast? = some latest) (hmore : more < 2 ^ 2)
      (hrest : AreRuns code (read ++ .replicate (3 + more) latest) bits new) :
      AreRuns code read (string ++ (lowestFirst 2 more ++ bits))
        (.replicate (3 + more) latest ++ new)
  /-- Some symbols have no string. -/
  | none {read new : List Nat} {more : Nat} {string bits : List Bool} (h : code 17 string)
      (hmore : more < 2 ^ 3) (hrest : AreRuns code (read ++ .replicate (3 + more) 0) bits new) :
      AreRuns code read (string ++ (lowestFirst 3 more ++ bits)) (.replicate (3 + more) 0 ++ new)
  /-- Many symbols have no string. -/
  | noneOfMany {read new : List Nat} {more : Nat} {string bits : List Bool} (h : code 18 string)
      (hmore : more < 2 ^ 7) (hrest : AreRuns code (read ++ .replicate (11 + more) 0) bits new) :
      AreRuns code read (string ++ (lowestFirst 7 more ++ bits)) (.replicate (11 + more) 0 ++ new)

/-- The lengths of the code of lengths, of which some are given and the others are zero. -/
def lengthsOfGiven (given : List Nat) : List Nat :=
  (List.range 19).map fun symbol => given.getD (lengthOrder.idxOf symbol) 0

/-- Bits describe the lengths of the two codes of a block: how many there are of either, how many
    are given of the code of lengths, and which; then the lengths in that code. -/
inductive Describes (bits : List Bool) (literals distances : List Nat) : Prop where
  | intro {given : List Nat} {runs : List Bool}
      (hliterals : 257 ≤ literals.length ∧ literals.length ≤ 286)
      (hdistances : 1 ≤ distances.length ∧ distances.length ≤ 30)
      (hgiven : 4 ≤ given.length ∧ given.length ≤ 19 ∧ ∀ l ∈ given, l < 2 ^ 3)
      (hcomplete : IsComplete (lengthsOfGiven given))
      (hruns : AreRuns (IsString (lengthsOfGiven given)) [] runs (literals ++ distances))
      (hbits : bits = lowestFirst 5 (literals.length - 257) ++ (lowestFirst 5 (distances.length - 1)
        ++ (lowestFirst 4 (given.length - 4) ++ (given.flatMap (lowestFirst 3) ++ runs)))) :
      Describes bits literals distances

/-! ## Blocks -/

/-- Bits are what a block of a kind holds, of which the first bit is at `place` in the stream and
    which comes after the output `out` and stands for `new`. -/
inductive IsBlock (window place : Nat) (out : List UInt8) :
    (kind : Nat) → List Bool → List UInt8 → Prop where
  /-- The bytes are stored as they are, from the next whole byte on. -/
  | stored {new : List UInt8} {rest : List Bool} (hrest : rest.length < 8)
      (hplace : 8 ∣ place + rest.length) (hnew : new.length < 2 ^ 16) :
      IsBlock window place out 0 (rest ++ (lowestFirst 16 new.length ++
        (lowestFirst 16 (2 ^ 16 - 1 - new.length) ++ bitsOf new))) new
  /-- The bytes are coded in the codes that need no description. -/
  | fixed {new : List UInt8} {bits : List Bool}
      (h : AreSymbols window (IsString fixedLiterals) (IsString fixedDistances) out bits new) :
      IsBlock window place out 1 bits new
  /-- The bytes are coded in codes that are described. -/
  | described {new : List UInt8} {description bits : List Bool} {literals distances : List Nat}
      (hdescribes : Describes description literals distances) (hliterals : IsCode literals)
      (hdistances : IsCode distances)
      (h : AreSymbols window (IsString literals) (IsString distances) out bits new) :
      IsBlock window place out 2 (description ++ bits) new

/-- Bits are blocks up to the last one. Before each of them stand a bit that marks the last, and
    its kind. -/
inductive AreBlocks (window : Nat) :
    (place : Nat) → (out : List UInt8) → List Bool → List UInt8 → Prop where
  | last {place kind : Nat} {out new : List UInt8} {bits : List Bool}
      (h : IsBlock window (place + 3) out kind bits new) :
      AreBlocks window place out (true :: (lowestFirst 2 kind ++ bits)) new
  | more {place kind : Nat} {out new new' : List UInt8} {bits bits' : List Bool}
      (h : IsBlock window (place + 3) out kind bits new)
      (hrest : AreBlocks window (place + 3 + bits.length) (out ++ new) bits' new') :
      AreBlocks window place out (false :: (lowestFirst 2 kind ++ (bits ++ bits'))) (new ++ new')

/-- Bits are a block and what stands before it: the bit that marks the last one, and its kind. -/
def IsMarked (window place : Nat) (done : List UInt8) (last : Bool) (bits : List Bool)
    (new : List UInt8) : Prop :=
  ∃ kind rest, bits = last :: (lowestFirst 2 kind ++ rest) ∧
    IsBlock window (place + 3) done kind rest new

/-- Bits are the blocks after one that may be the last. -/
def AreOthers (window place : Nat) (done : List UInt8) (last : Bool) (bits : List Bool)
    (new : List UInt8) : Prop :=
  if last then bits = [] ∧ new = [] else AreBlocks window place done bits new

/-- Blocks are one of them, and others unless it is the last. -/
theorem areBlocks_iff {window place : Nat} {done new : List UInt8} {bits : List Bool} :
    AreBlocks window place done bits new ↔ ∃ last front back, bits = front ++ back ∧
      ∃ new₁ new₂, IsMarked window place done last front new₁ ∧
        AreOthers window (place + front.length) (done ++ new₁) last back new₂ ∧
        new = new₁ ++ new₂ := by
  have hplace : ∀ (kind : Nat) (rest : List Bool),
      place + (false :: (lowestFirst 2 kind ++ rest)).length = place + 3 + rest.length := by
    intro kind rest
    rw [List.length_cons, List.length_append, length_lowestFirst]
    omega
  constructor
  · intro h
    cases h with
    | last h =>
      exact ⟨true, _, [], (List.append_nil _).symm, _, [], ⟨_, _, rfl, h⟩, ⟨rfl, rfl⟩,
        (List.append_nil _).symm⟩
    | @more _ kind _ _ _ rest _ h hothers =>
      rw [← hplace kind] at hothers
      exact ⟨false, _, _, congrArg _ (List.append_assoc _ _ _).symm, _, _, ⟨_, _, rfl, h⟩, hothers,
        rfl⟩
  · rintro ⟨last, _, back, rfl, new₁, new₂, ⟨kind, rest, rfl, h⟩, hothers, rfl⟩
    cases last with
    | true =>
      obtain ⟨rfl, rfl⟩ := hothers
      rw [List.append_nil, List.append_nil]
      exact .last h
    | false =>
      rw [hplace kind] at hothers
      rw [List.cons_append, List.append_assoc]
      exact .more h hothers

/-! ## Streams -/

/-- One more than the sum of bytes. -/
def sumOf (raw : List UInt8) : Nat := 1 + (raw.map UInt8.toNat).sum

/-- The checksum of bytes: what is left of the sum and of the sum of the sums of all bytes up to
    one of them, when divided by a prime. -/
def checksum (raw : List UInt8) : Nat :=
  (∑ i ∈ Finset.range raw.length, sumOf (raw.take (i + 1))) % 65521 * 2 ^ 16 + sumOf raw % 65521

/-- Bytes are a stream for `raw`: a header, blocks, what is left of a byte, and the checksum. -/
def IsStream (window : Nat) (stream raw : List UInt8) : Prop :=
  ∃ (method flags : UInt8) (bits rest : List Bool), isHeader method.toNat flags.toNat = true ∧
    AreBlocks window 16 [] bits raw ∧ rest.length < 8 ∧
    bitsOf stream = bitsOf [method, flags] ++ (bits ++ (rest ++ bitsOf (fourBytes (checksum raw))))

/-! ## Windows -/

variable {window window' place : Nat} {literals distances : Code} {out new : List UInt8}
  {bits : List Bool}

/-- What is copied does not change if there is more before it. -/
theorem IsCopy.append_left {before : List UInt8} {distance : Nat} (h : IsCopy before distance new)
    (earlier : List UInt8) : IsCopy (earlier ++ before) distance new := by
  obtain ⟨hle, hnew⟩ := h
  refine ⟨hle.trans (by rw [List.length_append]; omega), fun i hi => ?_⟩
  have hplace : (earlier ++ before).length + i - distance =
      earlier.length + (before.length + i - distance) := by
    rw [List.length_append]
    omega
  rw [hnew i hi, hplace, List.append_assoc, List.getElem?_append_right (Nat.le_add_right _ _),
    Nat.add_sub_cancel_left]

theorem IsCopy.mono {distance : Nat} (hle : window ≤ window')
    (h : IsCopy (windowed window out) distance new) :
    IsCopy (windowed window' out) distance new := by
  have hlonger := h.append_left (.replicate (window' - window) 0)
  rwa [windowed, ← List.append_assoc, List.replicate_append_replicate,
    Nat.sub_add_cancel hle] at hlonger

theorem AreSymbols.mono (hle : window ≤ window')
    (h : AreSymbols window literals distances out bits new) :
    AreSymbols window' literals distances out bits new := by
  induction h with
  | stop h => exact .stop h
  | literal h _ ih => exact .literal h ih
  | copy h hlength h' hdistance hcopy _ ih =>
    exact .copy h hlength h' hdistance (hcopy.mono hle) ih

theorem IsBlock.mono {kind : Nat} (hle : window ≤ window')
    (h : IsBlock window place out kind bits new) : IsBlock window' place out kind bits new := by
  cases h with
  | stored hrest hplace hnew => exact .stored hrest hplace hnew
  | fixed h => exact .fixed (h.mono hle)
  | described hdescribes hliterals hdistances h =>
    exact .described hdescribes hliterals hdistances (h.mono hle)

theorem AreBlocks.mono (hle : window ≤ window') (h : AreBlocks window place out bits new) :
    AreBlocks window' place out bits new := by
  induction h with
  | last h => exact .last (h.mono hle)
  | more h _ ih => exact .more (h.mono hle) ih

/-- A stream stands for the same bytes if copies may reach further back. -/
theorem IsStream.mono {stream raw : List UInt8} (hle : window ≤ window')
    (h : IsStream window stream raw) : IsStream window' stream raw := by
  obtain ⟨method, flags, bits, rest, hheader, hblocks, hrest, hbits⟩ := h
  exact ⟨method, flags, bits, rest, hheader, hblocks.mono hle, hrest, hbits⟩

end StatusList.Flate
