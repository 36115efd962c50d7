/-!
# Decimal numbers

How numbers are given in settings and arguments: decimal digits, any number of
which may be zeros at the front, after an optional plus sign. There are no
blanks, and a number beyond what has been agreed on is none.

* `natural?`: a number without a sign of its own;
* `integer?`: a number that may have a minus sign.
-/

namespace StatusList.Decimal

/-- The number that digits give. -/
def ofDigits (digits : List Char) : Nat := digits.foldl (fun n c => n * 10 + (c.toNat - 48)) 0

/-- The number of digits, of which there has to be one. -/
def digits? (digits : List Char) : Option Nat :=
  if digits ≠ [] ∧ digits.all Char.isDigit then some (ofDigits digits) else none

/-- A number that is at most `most`. -/
def natural? (most : Nat) (text : String) : Option Nat :=
  let number := match text.toList with
    | '+' :: digits => digits? digits
    | digits => digits? digits
  number.filter (· ≤ most)

/-- A number from zero to `most`, where zero may have a minus sign. -/
def integer? (most : Nat) (text : String) : Option Nat :=
  match text.toList with
  | '-' :: digits => (digits? digits).filter (· = 0)
  | _ => natural? most text

end StatusList.Decimal
