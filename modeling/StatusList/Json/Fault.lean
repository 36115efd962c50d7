import StatusList.Decimal.Shortest
import StatusList.Text.Quoted

/-!
# Faults of JSON texts

A *fault* is the first thing, in reading order, that keeps a text from being the
JSON of a certain kind of value: the text is no JSON at all, or what it holds is
not what was expected there.
-/

namespace StatusList.Json

/-- A number as a text gives it. Integers that fit into 64 bits, with or without
    a sign, are exact; every other number is the floating-point number that its
    digits give. -/
inductive Number where
  /-- An integer of at most 64 bits. -/
  | integer (value : Int)
  /-- Any other number. -/
  | real (value : Float)
  deriving Repr, Inhabited

/-- What stands where something else was expected. -/
inductive Found where
  | null
  | boolean (value : Bool)
  | number (value : Number)
  | string (value : String)
  | sequence
  | map
  deriving Repr, Inhabited

/-- What a text was in the middle of when it ended. -/
inductive Unfinished where
  | value
  | string
  | list
  | object
  deriving DecidableEq, Repr, Inhabited

/-- Why a text is not the JSON of a value of the expected kind. -/
inductive Fault where
  /-- The text ends too early. -/
  | ended (inside : Unfinished)
  /-- No value begins here. -/
  | expectedValue
  /-- A word other than `null`, `true` and `false`. -/
  | unknownWord
  /-- Something else than a colon after a key. -/
  | expectedColon
  /-- Something else than a comma or a closing bracket after an item. -/
  | expectedListEnd
  /-- Something else than a comma or a closing brace after a member. -/
  | expectedObjectEnd
  /-- A key that is no string. -/
  | keyNotString
  /-- A closing bracket or brace right after a comma. -/
  | trailingComma
  /-- Something after the value. -/
  | trailingCharacters
  /-- A number with missing or superfluous digits. -/
  | invalidNumber
  /-- A number too large for a floating-point number. -/
  | numberOutOfRange
  /-- A backslash before something that has no meaning there. -/
  | invalidEscape
  /-- The first half of a surrogate pair without a second. -/
  | halfPair
  /-- A half of a surrogate pair in the wrong place. -/
  | loneSurrogate
  /-- Bytes inside a string that are not UTF-8. -/
  | invalidCodePoint
  /-- A control character inside a string. -/
  | controlCharacter
  /-- A member is missing. -/
  | missingField (name : String)
  /-- A member occurs twice. -/
  | duplicateField (name : String)
  /-- A value of the wrong kind. -/
  | invalidType (found : Found) (expected : String)
  /-- A value of the right kind that is out of bounds. -/
  | invalidValue (found : Found) (expected : String)
  /-- An array of the wrong length in the place of an object. -/
  | invalidLength (length : Nat) (expected : String)
  /-- A number of bits that is no width. -/
  | invalidWidth (bits : Nat)
  deriving Repr, Inhabited

/-- The words for a number of bits that is no width. -/
def invalidWidthMessage (bits : Nat) : String :=
  s!"the allowed values for bits are 1, 2, 4 and 8, got {bits}"

/-! ## Words -/

/-- A floating-point number in words: its shortest digits, with a point where
    that takes at most sixteen digits before it or four zeros after it, and with
    an exponent otherwise. -/
def realText (x : Float) : String :=
  let bits := x.toBits
  let sign := if bits.toNat < 0x8000000000000000 then "" else "-"
  let decimal := (Binary.ofBits bits).shortest
  let digits := toString decimal.digits
  let point := (digits.length : Int) + decimal.exponent
  sign ++
    if decimal.digits = 0 then "0.0"
    else if 0 ≤ decimal.exponent ∧ point ≤ 16 then digits ++ zeros decimal.exponent ++ ".0"
    else if 0 < point ∧ point ≤ 16 then
      (digits.take point.toNat).toString ++ "." ++ (digits.drop point.toNat).toString
    else if -5 < point ∧ point ≤ 0 then "0." ++ zeros (-point) ++ digits
    else
      (digits.take 1).toString
        ++ (if digits.length = 1 then "" else "." ++ (digits.drop 1).toString)
        ++ "e" ++ (if 0 < point then "+" else "") ++ toString (point - 1)
where
  /-- As many zeros as `n`. -/
  zeros (n : Int) : String := .ofList (.replicate n.toNat '0')

/-- The words for what was found. -/
def Found.message : Found → String
  | null => "null"
  | boolean value => s!"boolean `{value}`"
  | number (.integer value) => s!"integer `{value}`"
  | number (.real value) => s!"floating point `{realText value}`"
  | string value => "string " ++ Text.quote value
  | sequence => "sequence"
  | map => "map"

/-- The words for what was not finished. -/
def Unfinished.message : Unfinished → String
  | value => "a value"
  | string => "a string"
  | list => "a list"
  | object => "an object"

/-- The words for a fault. -/
def Fault.message : Fault → String
  | ended inside => s!"EOF while parsing {inside.message}"
  | expectedValue => "expected value"
  | unknownWord => "expected ident"
  | expectedColon => "expected `:`"
  | expectedListEnd => "expected `,` or `]`"
  | expectedObjectEnd => "expected `,` or `\x7d`"
  | keyNotString => "key must be a string"
  | trailingComma => "trailing comma"
  | trailingCharacters => "trailing characters"
  | invalidNumber => "invalid number"
  | numberOutOfRange => "number out of range"
  | invalidEscape => "invalid escape"
  | halfPair => "unexpected end of hex escape"
  | loneSurrogate => "lone leading surrogate in hex escape"
  | invalidCodePoint => "invalid unicode code point"
  | controlCharacter => "control character (\\u0000-\\u001F) found while parsing a string"
  | missingField name => s!"missing field `{name}`"
  | duplicateField name => s!"duplicate field `{name}`"
  | invalidType found expected => s!"invalid type: {found.message}, expected {expected}"
  | invalidValue found expected => s!"invalid value: {found.message}, expected {expected}"
  | invalidLength length expected => s!"invalid length {length}, expected {expected}"
  | invalidWidth bits => invalidWidthMessage bits

end StatusList.Json
