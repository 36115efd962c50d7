import StatusList.Domain.Direction
import StatusList.Domain.Joining
import StatusList.Domain.Punycode

/-!
# Domain names

A *domain name* consists of *labels* with dots between them. Letters of all
scripts may be in it; what is asked for on a network is its form in ASCII, in
which a label of other letters begins with `xn--`. A name may be written in either
form, label by label.

* `toAscii?`: the ASCII form of a name.
-/

namespace StatusList.Domain

/-- The parts of a text between its dots. -/
def labels (text : List Char) : List (List Char) :=
  text.foldr
    (fun c parts => match parts with
      | part :: rest => if c = '.' then [] :: part :: rest else (c :: part) :: rest
      | [] => if c = '.' then [[], []] else [[c]])
    [[]]

/-- Whether a text is in ASCII. -/
def isAscii (text : List Char) : Bool := text.all fun c => c.toNat < 0x80

/-- Whether a letter delimits parts of a URL, or is a blank or a control character. -/
def isForbidden (c : Char) : Bool :=
  c.toNat ≤ 0x20 ∨ c ∈ ['#', '%', '/', ':', '<', '>', '?', '@', '[', '\\', ']', '^', '|', '\x7F']

/-- What a text is taken for: each letter by those that stand for it, in composed
    form. -/
def canonical? (text : List Char) : Option (List Char) := do
  return compose (← text.mapM mapping?).flatten

/-! ## Labels -/

/-- The most characters of a label in ASCII after the mark of one that stands for
    another. -/
def longestCode : Nat := 2000

/-- The most letters of a label that is not in ASCII. -/
def longestLabel : Nat := 1000

/-- The label that a label stands for. The ASCII form has to stand for a label that
    is not in ASCII and taken for nothing else. -/
def ofCode? : List Char → Option (List Char)
  | 'x' :: 'n' :: '-' :: '-' :: code =>
    if code = [] ∨ code.getLast? = some '-' ∨ longestCode < code.length ∨ !isAscii code then none
    else (Punycode.decode? code).filter fun label => canonical? label = some label
  | label => some label

/-- Whether a label may be in a name. -/
def isLabel (label : List Char) : Bool :=
  !label.any isForbidden ∧ !label.head?.any isMark ∧ joinersFit [] label
    ∧ (isAscii label ∨ label.length ≤ longestLabel)

/-- The ASCII form of a label. -/
def toCode (label : List Char) : List Char :=
  if isAscii label then label else "xn--".toList ++ Punycode.encode label

/-! ## Names -/

/-- The ASCII form of a name. -/
def toAscii? (name : List Char) : Option (List Char) := do
  let labels ← (labels (← canonical? name)).mapM ofCode?
  if !labels.all isLabel then none
  else if labels.any hasTwoDirections ∧ !labels.all keepsDirection then none
  else some (['.'].intercalate (labels.map toCode))

end StatusList.Domain
