import StatusList.Json.Reader

/-!
# JSON values

A JSON *value*, and its two written forms: the compact one has no white space,
the pretty one has every item and member on a line of its own.

Strings are written as they are, but for quotation marks, backslashes and
control characters.
-/

namespace StatusList

/-- A JSON value. The members of an object keep their order. -/
inductive Json where
  | null
  | boolean (value : Bool)
  | number (value : Json.Number)
  | string (value : String)
  | array (items : List Json)
  | object (members : List (String × Json))
  deriving Inhabited

namespace Json

instance : Coe String Json := ⟨string⟩

/-- The number of an integer. -/
def ofInt (n : Int) : Json := .number (.integer n)

/-- The number of a natural number. -/
def ofNat (n : Nat) : Json := ofInt n

/-- The text of an option, null if there is none. -/
def ofOption {α : Type} (f : α → Json) : Option α → Json
  | some value => f value
  | none => null

/-- The member of that key, the last if there are several. -/
def member? (key : String) : Json → Option Json
  | object members => members.reverse.lookup key
  | _ => none

/-- The object of the members that there are. -/
def record (members : List (String × Option Json)) : Json :=
  .object (members.filterMap fun (key, value) => value.map (key, ·))

/-! ## Writing -/

/-- A digit in base sixteen, in lower case. -/
def hexDigit (n : Nat) : Char := if n < 10 then .ofNat (48 + n) else .ofNat (87 + n)

/-- A character as a string literal has it. -/
def escape (c : Char) : List Char :=
  match c with
  | '"' => ['\\', '"']
  | '\\' => ['\\', '\\']
  | '\x08' => ['\\', 'b']
  | '\x0C' => ['\\', 'f']
  | '\n' => ['\\', 'n']
  | '\r' => ['\\', 'r']
  | '\t' => ['\\', 't']
  | c =>
    if c.toNat < 32 then
      ['\\', 'u', '0', '0', hexDigit (c.toNat / 16), hexDigit (c.toNat % 16)]
    else [c]

/-- Write characters after `out`. -/
def pushChars (out : String) (cs : List Char) : String := cs.foldl String.push out

/-- Write a string literal after `out`. -/
def pushString (out : String) (s : String) : String :=
  (s.toList.foldl (fun out c => pushChars out (escape c)) (out.push '"')).push '"'

/-- Write a number after `out`. -/
def pushNumber (out : String) : Number → String
  | .integer n => out ++ toString n
  | .real x => out ++ realText x

/-- Where the parts of arrays and objects are put: on one line, or each on a
    line of its own. -/
inductive Layout where
  | compact
  | pretty
  deriving DecidableEq, Repr, Inhabited

namespace Layout

/-- What stands between a key and its value. -/
def colon : Layout → String
  | compact => ":"
  | pretty => ": "

/-- What stands before a part that is `depth` levels deep. -/
def newline : Layout → (depth : Nat) → String
  | compact, _ => ""
  | pretty, depth => "\n" ++ .ofList (.replicate (2 * depth) ' ')

end Layout

mutual

/-- Write a value after `out`, `depth` levels deep. -/
def push (layout : Layout) (depth : Nat) (out : String) : Json → String
  | null => out ++ "null"
  | boolean value => out ++ (if value then "true" else "false")
  | number value => pushNumber out value
  | string value => pushString out value
  | array [] => out ++ "[]"
  | array (item :: items) =>
    let out := push layout (depth + 1) (out ++ "[" ++ layout.newline (depth + 1)) item
    pushItems layout (depth + 1) out items ++ layout.newline depth ++ "]"
  | object [] => out ++ "\x7b\x7d"
  | object ((key, value) :: members) =>
    let out := pushString (out ++ "\x7b" ++ layout.newline (depth + 1)) key ++ layout.colon
    let out := push layout (depth + 1) out value
    pushMembers layout (depth + 1) out members ++ layout.newline depth ++ "\x7d"

/-- Write items after the first. -/
def pushItems (layout : Layout) (depth : Nat) (out : String) : List Json → String
  | [] => out
  | item :: items =>
    let out := push layout depth (out ++ "," ++ layout.newline depth) item
    pushItems layout depth out items

/-- Write members after the first. -/
def pushMembers (layout : Layout) (depth : Nat) (out : String) : List (String × Json) → String
  | [] => out
  | (key, value) :: members =>
    let out := pushString (out ++ "," ++ layout.newline depth) key ++ layout.colon
    pushMembers layout depth (push layout depth out value) members

end

/-- The compact form. -/
def compact (value : Json) : String := push .compact 0 "" value

/-- The pretty form. -/
def pretty (value : Json) : String := push .pretty 0 "" value

/-! ## Reading -/

mutual

/-- Any value. -/
def ofNode : Reader Json
  | .null => .ok null
  | .boolean value => .ok (boolean value)
  | .number numeral => numeral.value.map number
  | .string literal => literal.map string
  | .array items close => do
    let items ← ofNodes items
    Reader.raise (Reader.arrayFault? close)
    return array items
  | .object members close => do
    let members ← ofMembers members
    Reader.raise (Reader.objectFault? close)
    return object members
  | .broken fault => .error fault.reading

/-- The values of items. -/
def ofNodes : List Node → Except Fault (List Json)
  | [] => .ok []
  | item :: items => do
    let item ← ofNode item
    return item :: (← ofNodes items)

/-- The members of an object. -/
def ofMembers : List (Literal × Node) → Except Fault (List (String × Json))
  | [] => .ok []
  | (key, value) :: members => do
    let key ← key
    let value ← ofNode value
    return (key, value) :: (← ofMembers members)

end

/-- The value of a text. -/
def ofText (text : String) : Except Fault Json := parse ofNode text.toUTF8.data.toList

end Json

end StatusList
