import StatusList.Url.Percent

/-!
# Forms

A *form* is a list of names with values. In the query of a URL its entries are
written with ampersands between them and an equals sign inside each; a space is
a plus sign, and what is neither a letter, a digit nor one of four marks is
encoded. Reading takes more than writing gives: an entry without an equals sign
has the empty value, and what is no UTF-8 is replaced.

* `Form.write`, `Form.read`: between forms and queries.
-/

namespace StatusList.Url.Form

/-- Whether a byte is written as it is. -/
def isPlain (b : UInt8) : Bool :=
  (48 ≤ b ∧ b ≤ 57) ∨ (65 ≤ b ∧ b ≤ 90) ∨ (97 ≤ b ∧ b ≤ 122) ∨ b = 42 ∨ b = 45 ∨ b = 46 ∨ b = 95

/-- A byte as it is written. -/
def writeByte (b : UInt8) : List Char :=
  if isPlain b then [.ofNat b.toNat] else if b = 32 then ['+'] else encodeByte b

/-- A name or a value as it is written. -/
def writeText (text : String) : List Char := text.toUTF8.data.toList.flatMap writeByte

/-- A form as it is written. -/
def write (entries : List (String × String)) : String :=
  .ofList (['&'].intercalate (entries.map fun (name, value) =>
    writeText name ++ '=' :: writeText value))

/-- The parts of bytes between those of one value. -/
def split (mark : UInt8) (bytes : List UInt8) : List (List UInt8) :=
  bytes.foldr
    (fun b parts =>
      if b = mark then [] :: parts
      else match parts with
        | part :: rest => (b :: part) :: rest
        | [] => [[b]])
    [[]]

/-- The name or value that bytes give. -/
def readText (bytes : List UInt8) : String :=
  Utf8.decodeLossy (decode (bytes.map fun b => if b = 43 then 32 else b))

/-- The entry that bytes give: the name up to the first equals sign, and the
    value after that. -/
def readEntry (bytes : List UInt8) : String × String :=
  (readText (bytes.takeWhile (· ≠ 61)), readText (bytes.dropWhile (· ≠ 61)).tail)

/-- The form that a query gives. -/
def read (query : String) : List (String × String) :=
  ((split 38 query.toUTF8.data.toList).filter (· ≠ [])).map readEntry

end StatusList.Url.Form
