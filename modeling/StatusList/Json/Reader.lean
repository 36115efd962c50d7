import StatusList.Json.Node

/-!
# Readers

A *reader* makes a value out of a node, or tells the first fault in reading
order. A *record* is the reader of an object with known members: it meets them
in any order and passes over all others, refuses a member that occurs twice, and
looks for missing ones only at the end. It takes an array as well, with the
members in their order.

* `parse`: the value of a text, read by a given reader.
-/

namespace StatusList.Json

/-- A way to make a value out of a node. -/
abbrev Reader (α : Type) := Node → Except Fault α

namespace Node

/-- What a node holds, for the message that something else was expected. -/
def found : Node → Except Fault Found
  | null => return .null
  | boolean value => return .boolean value
  | number numeral => return .number (← numeral.value)
  | string literal => return .string (← literal)
  | array .. => return .sequence
  | object .. => return .map
  | broken fault => throw fault.reading

/-- The fault of a node where something else was expected. -/
def mismatch (node : Node) (expected : String) : Fault :=
  match node.found with
  | .ok found => .invalidType found expected
  | .error fault => fault

end Node

namespace Reader

/-- A string. -/
def string : Reader String
  | .string literal => literal
  | node => .error (node.mismatch "a string")

/-- An integer from `least` to `most`. -/
def integer (expected : String) (least most : Int) : Reader Int
  | .number numeral =>
    match numeral.value with
    | .ok (.integer n) =>
      if least ≤ n ∧ n ≤ most then .ok n
      else .error (.invalidValue (.number (.integer n)) expected)
    | .ok x => .error (.invalidType (.number x) expected)
    | .error fault => .error fault
  | node => .error (node.mismatch expected)

/-- A number of eight bits. -/
def byte : Reader UInt8 := fun node => (integer "u8" 0 0xFF node).map (·.toNat.toUInt8)

/-- A number of 32 bits. -/
def word : Reader UInt32 := fun node => (integer "u32" 0 0xFFFFFFFF node).map (·.toNat.toUInt32)

/-- A number of 64 bits. -/
def longWord : Reader UInt64 := fun node =>
  (integer "u64" 0 0xFFFFFFFFFFFFFFFF node).map (·.toNat.toUInt64)

/-- A number of 64 bits with a sign. -/
def signed : Reader Int64 := fun node =>
  (integer "i64" (-0x8000000000000000) 0x7FFFFFFFFFFFFFFF node).map (·.toInt64)

/-- Null, or what `reader` reads. -/
def option {α : Type} (reader : Reader α) : Reader (Option α)
  | .null => .ok none
  | node => (reader node).map some

/-- The fault of reading the end of an array. -/
def arrayFault? : Close → Option Fault
  | .closed => none
  | .missing => some (.ended .list)
  | .stray => some .expectedListEnd
  | .afterComma => some .trailingComma
  | .badKey fault => some fault.reading

/-- The fault of reading the end of an object. -/
def objectFault? : Close → Option Fault
  | .closed => none
  | .missing => some (.ended .object)
  | .stray => some .expectedObjectEnd
  | .afterComma => some .trailingComma
  | .badKey fault => some fault.reading

/-- The fault of the end of an array that should have no further item. -/
def endFault? : List Node → Close → Option Fault
  | _ :: _, _ => some .trailingCharacters
  | [], .stray => some .trailingCharacters
  | [], close => arrayFault? close

/-- Raise a fault if there is one. -/
def raise : Option Fault → Except Fault Unit
  | some fault => .error fault
  | none => .ok ()

/-- An array of what `reader` reads. -/
def list {α : Type} (reader : Reader α) : Reader (List α)
  | .array items close => do
    let values ← items.mapM reader
    raise (arrayFault? close)
    return values
  | node => .error (node.mismatch "a sequence")

end Reader

/-! ## Records -/

/-- A member of a record, read into a draft. -/
structure Field (δ : Type) where
  /-- The key. -/
  name : String
  /-- Whether an array in the place of the object has to have the member. -/
  required : Bool
  /-- Put the member into the draft. -/
  put : δ → Reader δ

/-- A reader of objects with known members. -/
structure Record (δ α : Type) where
  /-- The name of the kind of value, as messages show it. -/
  name : String
  /-- The members, in the order in which an array has them. -/
  fields : List (Field δ)
  /-- The draft without members. -/
  blank : δ
  /-- The value of a draft, or the first member that it lacks. -/
  finish : δ → Except Fault α

namespace Record

variable {δ α : Type}

/-- What messages call the kind of value. -/
def title (r : Record δ α) : String := "struct " ++ r.name

/-- What messages call an array in the place of the object. -/
def titleOfArray (r : Record δ α) : String :=
  s!"{r.title} with {r.fields.length} " ++ if r.fields.length = 1 then "element" else "elements"

/-- Put members into a draft; `seen` are the keys of those already put. -/
def putMembers (r : Record δ α) (seen : List String) (draft : δ) :
    List (Literal × Node) → Except Fault δ
  | [] => .ok draft
  | (key, value) :: members => do
    let key ← key
    match r.fields.find? (·.name = key) with
    | none => do
      Reader.raise value.pass?
      putMembers r seen draft members
    | some field => do
      if key ∈ seen then
        throw (.duplicateField key)
      let draft ← field.put draft value
      putMembers r (key :: seen) draft members

/-- Put items into a draft, each as the next of `fields`; `count` items have
    been put already. What is left over of the items comes with the draft. -/
def putItems (r : Record δ α) (close : Close) (count : Nat) (draft : δ) :
    List (Field δ) → List Node → Except Fault (δ × List Node)
  | [], items => .ok (draft, items)
  | field :: fields, item :: items => do
    let draft ← field.put draft item
    putItems r close (count + 1) draft fields items
  | field :: fields, [] => do
    Reader.raise (Reader.arrayFault? close)
    if field.required then
      throw (.invalidLength count r.titleOfArray)
    putItems r close (count + 1) draft fields []

/-- Read an object, or an array in its place. -/
def read (r : Record δ α) : Reader α
  | .object members close => do
    let draft ← r.putMembers [] r.blank members
    Reader.raise (Reader.objectFault? close)
    r.finish draft
  | .array items close => do
    let (draft, rest) ← r.putItems close 0 r.blank r.fields items
    let value ← r.finish draft
    Reader.raise (Reader.endFault? rest close)
    return value
  | node => .error (node.mismatch r.title)

end Record

/-- The value of a member that has to be there. -/
def need {α : Type} (name : String) : Option α → Except Fault α
  | some value => .ok value
  | none => .error (.missingField name)

/-! ## Texts -/

/-- The value of a text, read by `reader`. -/
def parse {α : Type} (reader : Reader α) (text : List UInt8) : Except Fault α := do
  let (node, more) := Node.ofTokens (Token.ofText text)
  let value ← reader node
  if more then throw .trailingCharacters else return value

end StatusList.Json
