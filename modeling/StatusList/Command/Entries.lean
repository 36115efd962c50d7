import StatusList.Decimal.Natural
import StatusList.Unpacked

/-!
# Entries by hand

At the command line, the width of a list and its entries are given as decimal
numbers, and any number of entries is taken: the list gets zeros at its end until
it fills whole bytes.

* `packValues`: the packed list of values;
* `unpackValues`: the values of an encoded list.
-/

namespace StatusList.Command

/-- Why a text gives no width. -/
inductive BadWidth where
  /-- The text is no number of eight bits. -/
  | notANumber (text : String)
  /-- The number is no width. -/
  | notAWidth (cause : Error)
  deriving Repr, Inhabited

/-- The words for a text that gives no width. -/
def BadWidth.message : BadWidth → String
  | notANumber text => s!"\x60{text}\x60 is not a number"
  | notAWidth cause => cause.message

/-- The width that a text gives. -/
def readWidth (text : String) : Except BadWidth Width :=
  match Decimal.natural? 255 text with
  | none => .error (.notANumber text)
  | some bits =>
    match Width.ofBits? bits with
    | some width => .ok width
    | none => .error (.notAWidth (.invalidWidth bits))

/-- Why values and encoded lists do not give each other. -/
inductive EntryError where
  /-- The text is no encoded list. -/
  | notDecoded (cause : Error)
  /-- The value at that index cannot be put into the list. -/
  | notPut (index : Nat) (cause : Error)
  deriving Repr, Inhabited

namespace EntryError

/-- The words for an error. -/
def message : EntryError → String
  | notDecoded cause => s!"failed to decode status list: {cause.message}"
  | notPut index cause => s!"entry {index}: {cause.message}"

/-- What is wrong with the list or the value. -/
def cause : EntryError → Error
  | notDecoded cause => cause
  | notPut _ cause => cause

end EntryError

/-- All values of an encoded list, one byte for each. -/
def unpackValues (w : Width) (encoded : String) : Except EntryError ByteArray :=
  (decodeUnpacked w encoded).mapError .notDecoded

/-- A list of zeros with room for `n` entries, in as few bytes as that takes, but
    one at least. -/
def roomFor (w : Width) (n : Nat) : Packed :=
  ⟨w, Packed.fill 0 (max 1 ((n + w.perByte - 1) / w.perByte)) .empty⟩

/-- Put values into a list, the first of them at `index`. -/
def putAll (p : Packed) (index : Nat) : List UInt8 → Except EntryError Packed
  | [] => .ok p
  | value :: values =>
    match p.set index value with
    | .ok p => putAll p (index + 1) values
    | .error cause => .error (.notPut index cause)

/-- The packed list of values, with zeros after them up to a whole byte. -/
def packValues (w : Width) (values : List UInt8) : Except EntryError Packed :=
  putAll (roomFor w values.length) 0 values

end StatusList.Command
