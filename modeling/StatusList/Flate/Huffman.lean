import StatusList.Flate.Bits

/-!
# Prefix codes

A *prefix code* gives each symbol a string of bits, none the beginning of
another. A stream describes a code by the length of each symbol's string alone:
shorter strings come first, and among strings of one length the smaller symbols
do. A code is *complete* if every long enough string of bits begins with the
string of some symbol. It is kept as a *tree*, in which a string of bits is a
path.

* `Tree.ofLengths?`: the tree of a list of lengths, if they describe a complete
  code, a code without symbols, or one with a single symbol at a single bit.

A code with a single symbol is never complete. It is taken nevertheless, but only
with the shortest string there is, be it a code of literals or one of distances:
at two bits or more it is refused like any other code that leaves strings over.
-/

namespace StatusList.Flate

/-- The longest string of bits that a code gives to a symbol. -/
def maxCodeLength : Nat := 15

/-- A prefix code as a tree of paths. -/
inductive Tree where
  /-- No string begins with this path. -/
  | vacant
  /-- This path is the string of `symbol`. -/
  | leaf (symbol : Nat)
  /-- The path goes on with a zero or with a one. -/
  | node (zero one : Tree)
  deriving Repr, Inhabited

namespace Tree

/-- The tree with `symbol` put at the path of the lowest `depth` bits of
    `code`, the highest of them first. -/
def insert (symbol code : Nat) : (depth : Nat) → Tree → Tree
  | 0, _ => leaf symbol
  | depth + 1, t =>
    let (zero, one) := match t with
      | node zero one => (zero, one)
      | _ => (vacant, vacant)
    if code.testBit depth then node zero (one.insert symbol code depth)
    else node (zero.insert symbol code depth) one

/-- The symbols that have a string of `length` bits, in order. -/
def symbolsOfLength (lengths : List Nat) (length : Nat) : List Nat :=
  lengths.zipIdx.filterMap fun (l, symbol) => if l = length then some symbol else none

/-- The share of all strings of fifteen bits that the strings of the symbols
    begin, as a number of strings. -/
def used (lengths : List Nat) : Nat :=
  lengths.foldl (fun total l => if l = 0 then total else total + 1 <<< (maxCodeLength - l)) 0

/-- The strings of all symbols in canonical order: the symbol, its code and the
    length of its string. -/
def canonical (lengths : List Nat) : List (Nat × Nat × Nat) :=
  ((List.range maxCodeLength).foldl
    (fun (codes, next) k =>
      -- The first string of a length that is free has the code `next`.
      let symbols := symbolsOfLength lengths (k + 1)
      (codes ++ symbols.zipIdx.map fun (symbol, i) => (symbol, next + i, k + 1),
        (next + symbols.length) * 2))
    ([], 0)).1

/-- Whether the lengths describe a complete code: the shares of their strings make
    up the whole. -/
def isComplete (lengths : List Nat) : Bool := used lengths = 1 <<< maxCodeLength

/-- The tree of the code that `lengths` describes, where the symbol of a length
    is its position and a length of zero means that the symbol has no string.
    Unless there is no string at all, or a single one of one bit, the code has to
    be complete. -/
def ofLengths? (lengths : List Nat) : Option Tree :=
  if lengths.filter (· ≠ 0) ∈ [[], [1]] ∨ isComplete lengths then
    some <| (canonical lengths).foldl
      (fun t (symbol, code, length) => t.insert symbol code length) (node vacant vacant)
  else
    none

/-- The symbol that the next bits of a source spell. -/
def decode : Tree → Decoder Nat
  | vacant, _ => .error .corrupt
  | leaf symbol, s => .ok (symbol, s)
  | node zero one, s =>
    match s.next? with
    | none => .error .truncated
    | some (false, s) => decode zero s
    | some (true, s) => decode one s

end Tree

end StatusList.Flate
