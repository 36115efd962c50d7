import StatusList.Flate.Huffman

/-!
# Codes from weights

The *weight* of a symbol is how often it occurs. The lengths of a short code
come from joining the two lightest groups of symbols until one group is left. A
stream limits the lengths of its codes: strings that would be too long are cut to
the limit, and others are made longer until there is room for all. The heavier a
symbol is, the shorter is its string.

* `lengthsOfWeights`: the lengths of a code for symbols of given weights.
-/

namespace StatusList.Flate

/-- A group of symbols with its weight. -/
structure Group where
  /-- The sum of the weights of the symbols. -/
  weight : Nat
  /-- The symbols, as deep as they were joined. -/
  tree : Tree

/-- Put a group before the first that is heavier. -/
def Group.putInto (g : Group) : List Group → List Group
  | [] => [g]
  | h :: rest => if g.weight < h.weight then g :: h :: rest else h :: g.putInto rest

/-- Join groups, which are ordered by weight, until one is left. The fuel is
    their number. -/
def joinGroups : (fuel : Nat) → List Group → Tree
  | fuel + 1, g :: h :: rest =>
    joinGroups fuel (Group.putInto ⟨g.weight + h.weight, .node g.tree h.tree⟩ rest)
  | _, g :: _ => g.tree
  | _, [] => .vacant

/-- The depths of the symbols of a tree. -/
def Tree.depths : Tree → (depth : Nat) → List Nat
  | vacant, _ => []
  | leaf _, depth => [depth]
  | node zero one, depth => zero.depths (depth + 1) ++ one.depths (depth + 1)

/-- How many strings there are of each length up to `limit`, given the lengths. Too
    long ones are cut, and none is empty. -/
def countLengths (limit : Nat) (lengths : List Nat) : Array Nat :=
  lengths.foldl (fun counts length => counts.modify (max 1 (min limit length)) (· + 1))
    (.replicate (limit + 1) 0)

/-- How many strings of `limit` bits begin with the counted ones. -/
def spaceOf (limit : Nat) (counts : Array Nat) : Nat :=
  counts.toList.zipIdx.foldl (fun space (count, length) => space + count <<< (limit - length)) 0

/-- Make room for one string of `limit` bits: one such string goes under a string
    that is shorter, the longest of those, which gets longer by one bit. -/
def makeRoom (limit : Nat) (counts : Array Nat) : Array Nat :=
  let counts := counts.modify limit (· - 1)
  match (List.range limit).reverse.find? fun length => counts.getD length 0 ≠ 0 with
  | none => counts
  | some length => (counts.modify length (· - 1)).modify (length + 1) (· + 2)

/-- How many strings there are of each length after there is room for all. -/
def fitCounts (limit : Nat) (counts : Array Nat) : Array Nat :=
  (spaceOf limit counts - 1 <<< limit).repeat (makeRoom limit) counts

/-- The lengths of a code for symbols of the given weights, none above `limit`. A
    symbol without weight gets no string. -/
def lengthsOfWeights (limit : Nat) (weights : Array Nat) : Array Nat :=
  let symbols := (weights.toList.zipIdx.filter fun (weight, _) => weight ≠ 0).mergeSort
    fun a b => a.1 ≤ b.1
  let groups := symbols.map fun (weight, symbol) => Group.mk weight (.leaf symbol)
  let counts := fitCounts limit (countLengths limit ((joinGroups groups.length groups).depths 0))
  let lengths := counts.toList.zipIdx.flatMap fun (count, length) => List.replicate count length
  -- The heaviest symbols come first, and so do the shortest lengths.
  (symbols.reverse.zip lengths).foldl
    (fun assigned ((_, symbol), length) => assigned.setIfInBounds symbol length)
    (.replicate weights.size 0)

end StatusList.Flate
