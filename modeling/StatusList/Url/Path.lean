import StatusList.Url.Percent

/-!
# Paths

The *path* of a URL leads from a root to a thing, by *segments* with slashes
before them. A URL that has no root has a text in the place of a path.

A segment of one dot stays where it is, and a segment of two dots goes back by
one segment, but never beyond the root. So no path holds such a segment: they
are followed when the path is built.

Tabs and line breaks do not count in a URL, but for one thing: they may cut a
drive off from what follows it.

* `follow`: the segments after one more piece of a text;
* `ofPieces`: the path that the pieces between slashes give;
* `extend`: a path with a text put behind it as one segment.
-/

namespace StatusList.Url

/-- What a scheme says about the rest of a URL. -/
inductive Kind where
  /-- A name of a file: there are drives, and a host is of no importance. -/
  | file
  /-- Something at a host, which has to be there. -/
  | special
  /-- Anything else. -/
  | other
  deriving DecidableEq, Repr, Inhabited

/-- Whether a backslash counts as a slash. -/
def Kind.isSpecial (kind : Kind) : Bool := kind ≠ .other

/-- How a URL leads to a thing. -/
inductive Path where
  /-- A text without segments. -/
  | rootless (text : List Char)
  /-- Segments from the root. -/
  | rooted (segments : List (List Char))
  /-- Segments from the root that would be taken for an authority, if a dot did not
      stand before them. -/
  | guarded (segments : List (List Char))
  deriving DecidableEq, Repr, Inhabited

/-! ## Characters that do not count -/

/-- Whether a character is left out of a URL wherever it stands. -/
def isDropped (c : Char) : Bool := c = '\t' ∨ c = '\n' ∨ c = '\r'

/-- The characters of a text that count. -/
def counted (text : List Char) : List Char := text.filter fun c => !isDropped c

/-! ## Segments of a meaning of their own -/

/-- A segment with its encoded dots decoded. -/
def plainDots : List Char → List Char
  | '%' :: '2' :: 'e' :: rest => '.' :: plainDots rest
  | '%' :: '2' :: 'E' :: rest => '.' :: plainDots rest
  | c :: rest => c :: plainDots rest
  | [] => []

/-- Whether a segment stays where it is. -/
def staysHere (segment : List Char) : Bool := plainDots segment = ['.']

/-- Whether a segment goes back. -/
def goesBack (segment : List Char) : Bool := plainDots segment = ['.', '.']

/-- Whether a segment names a drive. -/
def isDrive : List Char → Bool
  | [letter, mark] => letter.isAlpha && (mark = ':' || mark = '|')
  | _ => false

/-- The drive that a piece begins with and what follows it, where a tab or a line
    break stands between them. -/
def cutDrive? (piece : List Char) : Option (List Char × List Char) :=
  match piece.dropWhile isDropped with
  | [] => none
  | letter :: rest =>
    match rest.dropWhile isDropped with
    | ':' :: rest =>
      if letter.isAlpha ∧ rest.head?.any isDropped ∧ counted rest ≠ [] then
        some ([letter, ':'], counted rest)
      else none
    | _ => none

/-- The segments without the last one, which is kept where it names a drive. -/
def back (segments : List (List Char)) : List (List Char) :=
  if segments.getLast?.any isDrive then segments else segments.dropLast

/-! ## Building a path -/

/-- The segments after a piece in which the characters of `set` are encoded. Where
    it is the `last` piece and no step of its own, the path ends in a slash. -/
def follow (kind : Kind) (set : EncodeSet) (last : Bool) (segments : List (List Char))
    (piece : List Char) : List (List Char) :=
  -- Only the first segment of the name of a file can be a drive.
  let isFirst := kind = .file ∧ segments = []
  match if isFirst then cutDrive? piece else none with
  | some (drive, rest) => [drive, encode set rest]
  | none =>
    let segment := encode set (counted piece)
    if goesBack segment then back segments ++ if last then [[]] else []
    else if staysHere segment then segments ++ if last then [[]] else []
    else if isFirst ∧ isDrive segment then [segment.take 1 ++ [':']]
    else segments ++ [segment]

/-- The segments of a file begin with one that is not empty, if there is one. -/
def settle (kind : Kind) (segments : List (List Char)) : List (List Char) :=
  if kind = .file then
    match segments.dropWhile (· = []) with
    | [] => [[]]
    | rest => rest
  else segments

/-- The segments after those that pieces give, the last of which ends the path. -/
def followAll (kind : Kind) (segments : List (List Char)) : List (List Char) → List (List Char)
  | [] => segments
  | piece :: rest =>
    followAll kind (follow kind EncodeSet.path rest.isEmpty segments piece) rest

/-- The segments that pieces give. -/
def ofPieces (kind : Kind) (pieces : List (List Char)) : List (List Char) :=
  settle kind (followAll kind [] pieces)

/-- Whether a piece of the name of a file, after the given segments, is a drive in
    the first place. -/
def meetsDrive (segments : List (List Char)) : List (List Char) → Bool
  | [] => false
  | piece :: rest =>
    (segments = [] ∧ isDrive (counted piece))
      ∨ meetsDrive (follow .file EncodeSet.path rest.isEmpty segments piece) rest

/-- The pieces of a text between its slashes. -/
def pieces (kind : Kind) (text : List Char) : List (List Char) :=
  text.foldr
    (fun c pieces =>
      if c = '/' ∨ (c = '\\' ∧ kind.isSpecial) then [] :: pieces
      else match pieces with
        | piece :: rest => (c :: piece) :: rest
        | [] => [[c]])
    [[]]

/-! ## A path with more behind it -/

/-- The segments without one empty segment at the end, if there are others. -/
def withoutTrailing (segments : List (List Char)) : List (List Char) :=
  if 2 ≤ segments.length ∧ segments.getLast? = some [] then segments.dropLast else segments

/-- What is encoded in a text that is put into a path as it is. -/
def wholeSegment (kind : Kind) : EncodeSet :=
  if kind.isSpecial then EncodeSet.specialSegment else EncodeSet.segment

/-- Segments with a text behind them as one segment, in the place of an empty one
    at the end. A text of one or two dots adds nothing. -/
def extend (kind : Kind) (segments : List (List Char)) (text : List Char) : List (List Char) :=
  let segments := withoutTrailing segments
  if text = ['.'] ∨ text = ['.', '.'] then segments
  else
    settle kind
      (follow kind (wholeSegment kind) true (if segments = [[]] then [] else segments) text)

namespace Path

/-- The text of a path. -/
def text : Path → List Char
  | rootless text => text
  | rooted segments => segments.flatMap ('/' :: ·)
  | guarded segments => segments.flatMap ('/' :: ·)

end Path

end StatusList.Url
