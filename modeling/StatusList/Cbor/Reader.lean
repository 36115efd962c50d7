import StatusList.Cbor.Item
import StatusList.Text.Utf8

/-!
# Reading CBOR

An item is read from the beginning of a byte string; what follows it is left
alone. Besides the shortest form, longer heads and strings, arrays and maps of
unstated length are understood.

* `Item.read`: the item at the beginning of a byte string.
-/

namespace StatusList.Cbor

/-- Why a byte string does not begin with an item. -/
inductive Fault where
  /-- The bytes end inside the item. -/
  | ended
  /-- A head without meaning, a text that is not UTF-8, or something else than a
      piece of a string inside a string of unstated length. -/
  | illFormed
  /-- A break or an unassigned simple value in the place of an item, or an integer
      too far below zero. -/
  | notAnItem
  /-- Arrays, maps and tags inside one another beyond `deepest`. -/
  | tooDeep
  deriving DecidableEq, Repr, Inhabited

/-- The words for a fault. -/
def Fault.message : Fault → String
  | ended => "Io"
  | illFormed => "Syntax"
  | notAnItem => "Semantic"
  | tooDeep => "RecursionLimitExceeded"

/-- How many arrays, maps and tags may be inside one another. -/
def deepest : Nat := 256

/-- A step that takes something off the beginning of a byte string. -/
abbrev Parser := StateT (List UInt8) (Except Fault)

/-! ## Heads -/

/-- What the head of an item says. Where a length is missing, pieces, items or
    entries follow up to a break. -/
inductive Head where
  | positive (n : Nat)
  | negative (n : Nat)
  | bytes (length : Option Nat)
  | text (length : Option Nat)
  | array (length : Option Nat)
  | map (length : Option Nat)
  | tag (number : Nat)
  | simple (number : Nat)
  | real (value : List UInt8)
  | stop
  deriving Repr, Inhabited

/-- The first `n` bytes and the rest, if there are so many. -/
def splitAt? (n : Nat) (text : List UInt8) : Option (List UInt8 × List UInt8) :=
  go [] n text
where
  /-- Move `n` bytes to `done`, the latest first. -/
  go (done : List UInt8) : Nat → List UInt8 → Option (List UInt8 × List UInt8)
    | 0, text => some (done.reverse, text)
    | _ + 1, [] => none
    | n + 1, b :: text => go (b :: done) n text

/-- Take `n` bytes. -/
def takeExactly (n : Nat) : Parser (List UInt8) := fun text =>
  match splitAt? n text with
  | some result => .ok result
  | none => .error .ended

/-- The number that bytes give, the highest first. -/
def ofBigEndian (bytes : List UInt8) : Nat := bytes.foldl (fun n b => n * 256 + b.toNat) 0

/-- What the five lower bits of the first byte of a head say. -/
inductive Argument where
  /-- A small number. -/
  | small (n : Nat)
  /-- The bytes of a number. -/
  | wide (bytes : List UInt8)
  /-- Nothing. -/
  | unstated
  deriving Repr, Inhabited

/-- Take the rest of a head after the five lower bits of its first byte. -/
def takeArgument (low : Nat) : Parser Argument :=
  if low < 24 then return .small low
  else match low with
    | 24 => return .wide (← takeExactly 1)
    | 25 => return .wide (← takeExactly 2)
    | 26 => return .wide (← takeExactly 4)
    | 27 => return .wide (← takeExactly 8)
    | 31 => return .unstated
    | _ => throw .illFormed

/-- The number of a head, if it has one. -/
def Argument.number? : Argument → Option Nat
  | small n => some n
  | wide bytes => some (ofBigEndian bytes)
  | unstated => none

/-- What a head of kind `major` says. -/
def Head.of (major : Nat) (argument : Argument) : Except Fault Head :=
  match major, argument.number? with
  | 0, some n => .ok (positive n)
  | 1, some n => .ok (negative n)
  | 2, length => .ok (bytes length)
  | 3, length => .ok (text length)
  | 4, length => .ok (array length)
  | 5, length => .ok (map length)
  | 6, some n => .ok (tag n)
  | 7, _ =>
    match argument with
    | .small n => .ok (simple n)
    | .wide [b] => .ok (simple b.toNat)
    | .wide value => .ok (real value)
    | .unstated => .ok stop
  | _, _ => .error .illFormed

/-- Take a head. -/
def takeHead : Parser Head := do
  let first ← takeExactly 1
  let first := ofBigEndian first
  Head.of (first / 32) (← takeArgument (first % 32))

/-! ## Strings -/

/-- Take the pieces of a string of unstated length up to its break. `length?`
    tells the length of a piece from its head, `take` takes a piece of a length,
    `depth` tells how many strings of unstated length are open, and the fuel is the
    number of bytes left. -/
def takePieces {α : Type} (length? : Head → Option (Option Nat)) (take : Nat → Parser α) :
    (fuel depth : Nat) → (done : List α) → Parser (List α)
  | 0, _, _ => throw .ended
  | fuel + 1, depth, done => do
    match ← takeHead with
    | .stop =>
      match depth with
      | 0 => return done.reverse
      | depth + 1 => takePieces length? take fuel depth done
    | head =>
      match length? head with
      | none => throw .illFormed
      | some none => takePieces length? take fuel (depth + 1) done
      | some (some n) => takePieces length? take fuel depth ((← take n) :: done)

/-- The text of a byte string. -/
def textOf (bytes : List UInt8) : Except Fault String :=
  match Utf8.decode bytes.toByteArray with
  | .ok text => .ok text
  | .error _ => .error .illFormed

/-- The most bytes of a text that are looked at together. -/
def windowSize : Nat := 4096

/-- The text of the bytes of a window, and what is left for the next one: the
    beginning of a character that goes on there, which is three bytes at most. -/
def readWindow (bytes : List UInt8) : Except Fault (String × List UInt8) :=
  match Utf8.decode bytes.toByteArray with
  | .ok text => .ok (text, [])
  | .error fault => do
    let (start, rest) := bytes.splitAt fault.index
    if 3 < rest.length then throw .illFormed else return (← textOf start, rest)

/-- Take a text of `left` more bytes window by window, after the text `done` and
    the bytes `kept` of the latest window. The fuel is the number of bytes left:
    every window but the last takes one at least. -/
def takeWindows : (fuel left : Nat) → (kept : List UInt8) → (done : String) → Parser String
  | _, 0, [], done => return done
  | _, 0, _, _ => throw .illFormed
  | 0, _, _, _ => throw .ended
  | fuel + 1, left, kept, done => do
    let count := min left (windowSize - kept.length)
    let (text, kept) ← readWindow (kept ++ (← takeExactly count))
    takeWindows fuel (left - count) kept (done ++ text)

/-- Take the bytes of a byte string. -/
def takeByteString : Option Nat → Parser (List UInt8)
  | some n => takeExactly n
  | none => do
    let pieces ← takePieces (fun | .bytes length => some length | _ => none) takeExactly
      ((← get).length + 1) 0 []
    return pieces.flatten

/-- Take the text of a text string. A short one is looked at as a whole. -/
def takeText : Option Nat → Parser String
  | some n => if n ≤ windowSize then do textOf (← takeExactly n) else takeWindows n n [] ""
  | none => do
    let pieces ← takePieces (fun | .text length => some length | _ => none)
      (fun n => takeWindows n n [] "") ((← get).length + 1) 0 []
    return String.join pieces

/-! ## Items -/

/-- The least and the greatest integer that is not kept as a big number. -/
def leastInteger : Int := -UInt64.size

@[inherit_doc leastInteger]
def greatestInteger : Int := UInt64.size - 1

/-- The length of the byte string that follows a tag of an integer, if the next
    head is the one of such a string. -/
def integerLength? : (tag : Nat) → Head → Option Nat
  | 2, .bytes (some length) => if length ≤ 16 then some length else none
  | 3, .bytes (some length) => if length ≤ 16 then some length else none
  | _, _ => none

/-- The item of a byte string after a tag of an integer: tag 2 makes a number and
    tag 3 a negative one. -/
def Item.ofTagged (tag : Nat) (value : List UInt8) : Except Fault Item :=
  let n := ofBigEndian value
  let whole : Int := if tag = 3 then -1 - (n : Int) else n
  if tag = 3 ∧ 1 <<< 127 ≤ n then .error .notAnItem
  else if leastInteger ≤ whole ∧ whole ≤ greatestInteger then .ok (.integer whole)
  else .ok (.tag tag (.bytes value))

/-- Take what a tag says something about. `take` takes an item after its head. -/
def takeTagged (tag : Nat) (take : Head → Parser Item) : Parser Item := do
  let head ← takeHead
  match integerLength? tag head with
  | some length => Item.ofTagged tag (← takeExactly length)
  | none => return .tag tag (← take head)

/-- The item of a simple value. -/
def Item.ofSimple (number : Nat) : Except Fault Item :=
  match number with
  | 20 => .ok (.boolean false)
  | 21 => .ok (.boolean true)
  | 22 => .ok .null
  | 23 => .ok .null
  | _ => .error .notAnItem

/-- Take `n` values. -/
def takeCounted {α : Type} (take : Parser α) : (n : Nat) → (done : List α) → Parser (List α)
  | 0, done => return done.reverse
  | n + 1, done => do takeCounted take n ((← take) :: done)

/-- Take values up to a break, each with the head that has been taken already.
    The fuel is the number of bytes left. -/
def takeUntilStop {α : Type} (take : Head → Parser α) :
    (fuel : Nat) → (done : List α) → Parser (List α)
  | 0, _ => throw .ended
  | fuel + 1, done => do
    match ← takeHead with
    | .stop => return done.reverse
    | head => takeUntilStop take fuel ((← take head) :: done)

/-- Take as many values as `length` says, or all up to a break. -/
def takeSeries {α : Type} (take : Head → Parser α) : Option Nat → Parser (List α)
  | some n => takeCounted (do take (← takeHead)) n []
  | none => do takeUntilStop take ((← get).length + 1) []

/-- Take the item after its head, with at most `depth` arrays, maps and tags
    inside one another. The tag of an integer does not count. -/
def takeItem : (depth : Nat) → Head → Parser Item
  | _, .positive n => return .integer n
  | _, .negative n => return .integer (-1 - (n : Int))
  | _, .bytes length => return .bytes (← takeByteString length)
  | _, .text length => return .text (← takeText length)
  | _, .simple number => Item.ofSimple number
  | _, .real value => return .real value
  | _, .stop => throw .notAnItem
  | 0, .tag number => takeTagged number fun _ => throw .tooDeep
  | 0, _ => throw .tooDeep
  | depth + 1, .array length => return .array (← takeSeries (takeItem depth) length)
  | depth + 1, .map length => do
    -- The head of a key has been taken already, the head of its value has not.
    let entry := fun head => do
      let key ← takeItem depth head
      return (key, ← takeItem depth (← takeHead))
    return .map (← takeSeries entry length)
  | depth + 1, .tag number => takeTagged number (takeItem depth)

/-- The item at the beginning of a byte string. -/
def Item.read (text : List UInt8) : Except Fault Item :=
  (do takeItem deepest (← takeHead) : Parser Item).run' text

end StatusList.Cbor
