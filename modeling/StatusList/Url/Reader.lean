import StatusList.Url.Basic

/-!
# Texts to URLs

A text is read as a URL in the way of a web browser: blanks around it and line
breaks in it do not count, the scheme and the host are folded, dots in the path
are followed, and what may not stand in a part is encoded. A text without a
scheme is no URL.

* `Url.parse`: the URL that a text gives, or why it gives none.
-/

namespace StatusList.Url

/-- Whether a character delimits the authority of a URL. -/
def endsAuthority (kind : Kind) (c : Char) : Bool :=
  c = '/' ∨ c = '?' ∨ c = '#' ∨ (c = '\\' ∧ kind.isSpecial)

/-- Whether a character is a slash for a special URL. -/
def isSlash (c : Char) : Bool := c = '/' ∨ c = '\\'

/-- A text without the controls and blanks at its ends. -/
def trimmed (text : List Char) : List Char :=
  let skip := fun c : Char => decide (c.toNat ≤ 0x20)
  ((text.dropWhile skip).reverse.dropWhile skip).reverse

/-- The text up to a character, and what comes after that, if it is there. -/
def cut (mark : Char) (text : List Char) : List Char × Option (List Char) :=
  match text.dropWhile (· ≠ mark) with
  | [] => (text, none)
  | _ :: rest => (text.takeWhile (· ≠ mark), some rest)

/-- The scheme of a text in lower case, and what follows its colon. -/
def readScheme (text : List Char) : Except Fault (String × List Char) :=
  match cut ':' text with
  | (c :: scheme, some rest) =>
    if c.isAlpha ∧ scheme.all (fun c => c.isAlphanum || c ∈ ['+', '-', '.']) then
      .ok (.ofList ((c :: scheme).map Char.toLower), rest)
    else .error .relative
  | _ => .error .relative

/-! ## The authority -/

/-- The text before the last at sign, if there is one, and what follows. -/
def cutUser (text : List Char) : Option (List Char) × List Char :=
  let host := (text.reverse.takeWhile (· ≠ '@')).reverse
  if host.length = text.length then (none, text)
  else (some (text.take (text.length - host.length - 1)), host)

/-- The text before the first colon that is not in brackets, and the rest. -/
def cutPort (inBrackets : Bool) : List Char → List Char × List Char
  | [] => ([], [])
  | c :: text =>
    if c = ':' ∧ !inBrackets then ([], c :: text)
    else
      let (host, rest) := cutPort (c = '[' ∨ (inBrackets ∧ c ≠ ']')) text
      (c :: host, rest)

/-- The port that digits give, where it is not the one of the scheme. -/
def readPort (scheme : String) (digits : List Char) : Except Fault (Option Nat) :=
  let port := digits.foldl (fun n c => n * 10 + (c.toNat - 48)) 0
  if 65535 < port then .error .invalidPort
  else .ok (if digits = [] ∨ defaultPort? scheme = some port then none else some port)

/-- A host and a port, and what follows the port. -/
def readHost (scheme : String) (text : List Char) :
    Except Fault (Host × Option Nat × List Char) := do
  let special := (Kind.ofScheme scheme).isSpecial
  let (name, rest) := cutPort false text
  if special ∧ name = [] then throw .emptyHost
  let host ← if special then Host.parse name else Host.parseOther name
  match rest with
  | [] => return (host, none, [])
  | _ :: rest =>
    -- A port has to have a host before it.
    if host = .empty then throw .emptyHost
    let after := rest.dropWhile Char.isDigit
    if !after.head?.all (· = '\\') then throw .invalidPort
    return (host, ← readPort scheme (rest.takeWhile Char.isDigit), after)

/-- An authority, and what follows it. -/
def readAuthority (scheme : String) (text : List Char) :
    Except Fault (Authority × List Char) := do
  let ends := endsAuthority (.ofScheme scheme)
  let after := text.dropWhile fun c => !ends c
  let (user, rest) := cutUser (text.takeWhile fun c => !ends c)
  -- Nothing stands on either side of the at sign.
  if user = some [] ∧ rest = [] ∧ after ≠ [] then throw .emptyHost
  let (username, password) := cut ':' (user.getD [])
  let username := encode EncodeSet.userinfo username
  let password := encode EncodeSet.userinfo (password.getD [])
  let (host, port, rest) ← readHost scheme rest
  if host = .empty ∧ (username ≠ [] ∨ password ≠ []) then throw .emptyHost
  return (⟨username, password, host, port⟩, rest ++ after)

/-! ## The parts after the authority -/

/-- A text without the slash that it may begin with. -/
def withoutSlash (kind : Kind) : List Char → List Char
  | [] => []
  | c :: text => if c = '/' ∨ (c = '\\' ∧ kind.isSpecial) then text else c :: text

/-- The segments of a path behind an authority. Where nothing follows a URL that
    is not special, there are none. -/
def readRooted (kind : Kind) (text : List Char) : List (List Char) :=
  if kind = .other ∧ text = [] then [] else ofPieces kind (pieces kind (withoutSlash kind text))

/-- A path without an authority before it. -/
def readBare (text : List Char) : Path :=
  if text.head? = some '/' then
    match readRooted .other text with
    | [] :: second :: rest => .guarded ([] :: second :: rest)
    | segments => .rooted segments
  else .rootless (encode EncodeSet.controls text)

/-- The text before the query, the query and the fragment. -/
def cutTail (kind : Kind) (text : List Char) :
    List Char × Option (List Char) × Option (List Char) :=
  let (text, fragment) := cut '#' text
  let (text, query) := cut '?' text
  let set := if kind.isSpecial then EncodeSet.specialQuery else EncodeSet.query
  (text, query.map fun query => encode set (counted query),
    fragment.map fun fragment => encode EncodeSet.fragment (counted fragment))

/-! ## Names of files -/

/-- The host of a file, of which `localhost` is no other than none. -/
def readFileHost (name : List Char) : Except Fault Host :=
  if name = [] then .ok .empty
  else return match ← Host.parse name with
    | .domain name => if name = "localhost".toList then .empty else .domain name
    | host => host

/-- A text without a slash that it begins with, if there is one. -/
def afterSlash? (text : List Char) : Option (List Char) :=
  match text.dropWhile isDropped with
  | c :: rest => if isSlash c then some rest else none
  | [] => none

/-- The host of a file and the segments of its path, given what follows the
    scheme. A drive does not need a host. -/
def readFile (text : List Char) : Except Fault (Host × List (List Char)) := do
  match (afterSlash? text).bind afterSlash? with
  | none => return (.empty, ofPieces .file (pieces .file ((afterSlash? text).getD text)))
  | some rest =>
    let name := counted (rest.takeWhile fun c => !isSlash c)
    if isDrive name then return (.empty, ofPieces .file (pieces .file rest))
    let host ← readFileHost name
    let pieces := pieces .file (rest.dropWhile fun c => !isSlash c).tail
    return (if meetsDrive [] pieces then .empty else host, ofPieces .file pieces)

/-! ## The whole -/

/-- The URL that a text gives. -/
def parse (text : String) : Except Fault Url := do
  let text := trimmed text.toList
  let (scheme, rest) ← readScheme (counted text)
  match Kind.ofScheme scheme with
  | .file =>
    let (rest, query, fragment) := cutTail .file (text.dropWhile (· ≠ ':')).tail
    let (host, segments) ← readFile rest
    return ⟨scheme, some ⟨[], [], host, none⟩, .rooted segments, query, fragment⟩
  | .special =>
    let (authority, rest) ← readAuthority scheme (rest.dropWhile isSlash)
    let (rest, query, fragment) := cutTail .special rest
    return ⟨scheme, some authority, .rooted (readRooted .special rest), query, fragment⟩
  | .other =>
    match rest with
    | '/' :: '/' :: rest =>
      let (authority, rest) ← readAuthority scheme rest
      let (rest, query, fragment) := cutTail .other rest
      return ⟨scheme, some authority, .rooted (readRooted .other rest), query, fragment⟩
    | _ =>
      let (rest, query, fragment) := cutTail .other rest
      return ⟨scheme, none, readBare rest, query, fragment⟩

/-- The URL that a text gives, if it gives one. -/
def parse? (text : String) : Option Url := (parse text).toOption

end StatusList.Url
