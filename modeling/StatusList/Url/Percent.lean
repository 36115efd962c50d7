import StatusList.Text.Utf8

/-!
# Percent encoding

A URL is ASCII. A character that may not stand in a part of it is written as the
bytes of its UTF-8, each as a percent sign and two digits in base sixteen. What
may not stand differs from part to part.

* `encode`: the characters of a text, encoded where `set` says so;
* `decode`: the bytes that an encoded text stands for.
-/

namespace StatusList.Url

/-- The ASCII characters that may not stand in a part of a URL. -/
abbrev EncodeSet := Char → Bool

namespace EncodeSet

/-- Control characters. -/
def controls : EncodeSet := fun c => c.toNat < 0x20 ∨ c = '\x7f'

/-- What may not stand in a fragment. -/
def fragment : EncodeSet := fun c => controls c ∨ c ∈ [' ', '"', '<', '>', '\x60']

/-- What may not stand in a path. -/
def path : EncodeSet := fun c => fragment c ∨ c ∈ ['#', '?', '\x7b', '\x7d']

/-- What may not stand in a user name or a password. -/
def userinfo : EncodeSet := fun c =>
  path c ∨ c ∈ ['/', ':', ';', '=', '@', '[', '\\', ']', '^', '|']

/-- What may not stand in a segment that is put into a path as it is. -/
def segment : EncodeSet := fun c => path c ∨ c ∈ ['/', '%']

/-- What may not stand in such a segment where a backslash is a slash. -/
def specialSegment : EncodeSet := fun c => segment c ∨ c = '\\'

/-- What may not stand in a query. -/
def query : EncodeSet := fun c => controls c ∨ c ∈ [' ', '"', '#', '<', '>']

/-- What may not stand in a query of a special URL. -/
def specialQuery : EncodeSet := fun c => query c ∨ c = '\''

end EncodeSet

/-- A digit in base sixteen, in upper case. -/
def upperHex (n : Nat) : Char := if n < 10 then .ofNat (48 + n) else .ofNat (55 + n)

/-- A byte as a percent sign and two digits. -/
def encodeByte (b : UInt8) : List Char :=
  ['%', upperHex (b.toNat / 16), upperHex (b.toNat % 16)]

/-- A character as it stands in a part of a URL. -/
def encodeChar (set : EncodeSet) (c : Char) : List Char :=
  if c.toNat < 0x80 ∧ !set c then [c] else (String.utf8EncodeChar c).flatMap encodeByte

/-- Characters as they stand in a part of a URL. -/
def encode (set : EncodeSet) (cs : List Char) : List Char := cs.flatMap (encodeChar set)

/-- The value of a digit in base sixteen, of either case. -/
def hexValue? (b : UInt8) : Option Nat :=
  if 48 ≤ b ∧ b ≤ 57 then some (b.toNat - 48)
  else if 97 ≤ b ∧ b ≤ 102 then some (b.toNat - 87)
  else if 65 ≤ b ∧ b ≤ 70 then some (b.toNat - 55)
  else none

/-- Add the bytes that an encoded text stands for to those of `done`, the latest
    of which is first. -/
def decodeOnto (done : List UInt8) : List UInt8 → List UInt8
  | 37 :: a :: b :: rest =>
    match hexValue? a, hexValue? b with
    | some high, some low => decodeOnto ((high * 16 + low).toUInt8 :: done) rest
    | _, _ => decodeOnto (37 :: done) (a :: b :: rest)
  | b :: rest => decodeOnto (b :: done) rest
  | [] => done.reverse

/-- The bytes that an encoded text stands for. A percent sign without two digits
    stands for itself. -/
def decode (bytes : List UInt8) : List UInt8 := decodeOnto [] bytes

end StatusList.Url
