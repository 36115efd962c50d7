/-!
# Base64url

The base64url alphabet without padding. Only the canonical spelling of a byte
string is read: the bits of the last character that belong to no byte are zero.

* `digit?_char`: every digit has one character.
-/

namespace StatusList.Base64Url

/-- The character of a digit. -/
def char (digit : Nat) : Char :=
  if digit < 26 then .ofNat ('A'.toNat + digit)
  else if digit < 52 then .ofNat ('a'.toNat + (digit - 26))
  else if digit < 62 then .ofNat ('0'.toNat + (digit - 52))
  else if digit = 62 then '-'
  else '_'

/-- The digit of a character. -/
def digit? (c : Char) : Option Nat :=
  if 'A' ≤ c ∧ c ≤ 'Z' then some (c.toNat - 'A'.toNat)
  else if 'a' ≤ c ∧ c ≤ 'z' then some (c.toNat - 'a'.toNat + 26)
  else if '0' ≤ c ∧ c ≤ '9' then some (c.toNat - '0'.toNat + 52)
  else if c = '-' then some 62
  else if c = '_' then some 63
  else none

/-! ## Writing -/

/-- Add the characters of a byte string to those of `done`, the latest of which
    is first. -/
def encodeOnto (done : List Char) : List UInt8 → List Char
  | a :: b :: c :: rest =>
    let n := (a.toNat * 256 + b.toNat) * 256 + c.toNat
    encodeOnto
      (char (n % 64) :: char (n / 64 % 64) :: char (n / 4096 % 64) :: char (n / 262144) :: done)
      rest
  | [a, b] =>
    let n := (a.toNat * 256 + b.toNat) * 4
    char (n % 64) :: char (n / 64 % 64) :: char (n / 4096) :: done
  | [a] =>
    let n := a.toNat * 16
    char (n % 64) :: char (n / 64) :: done
  | [] => done

/-- The spelling of a byte string. -/
def encode (bytes : List UInt8) : List Char := (encodeOnto [] bytes).reverse

/-! ## Reading -/

/-- Add the bytes that characters spell to those of `done`, the latest of which
    is first. -/
def decodeOnto (done : List UInt8) : List Char → Option (List UInt8)
  | a :: b :: c :: d :: rest =>
    match digit? a, digit? b, digit? c, digit? d with
    | some a, some b, some c, some d =>
      let n := ((a * 64 + b) * 64 + c) * 64 + d
      decodeOnto (n.toUInt8 :: (n / 256).toUInt8 :: (n / 65536).toUInt8 :: done) rest
    | _, _, _, _ => none
  | [a, b, c] =>
    match digit? a, digit? b, digit? c with
    | some a, some b, some c =>
      let n := (a * 64 + b) * 64 + c
      if n % 4 = 0 then some ((n / 4).toUInt8 :: (n / 1024).toUInt8 :: done) else none
    | _, _, _ => none
  | [a, b] =>
    match digit? a, digit? b with
    | some a, some b =>
      let n := a * 64 + b
      if n % 16 = 0 then some ((n / 16).toUInt8 :: done) else none
    | _, _ => none
  | [_] => none
  | [] => some done

/-- The byte string of which `cs` is the spelling. -/
def decode? (cs : List Char) : Option (List UInt8) := (decodeOnto [] cs).map .reverse

theorem digit?_char {digit : Nat} (h : digit < 64) : digit? (char digit) = some digit := by
  decide +revert

end StatusList.Base64Url
