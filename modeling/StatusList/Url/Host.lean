import StatusList.Domain.Name
import StatusList.Text.Utf8
import StatusList.Url.Percent

/-!
# Hosts

The *host* of a URL is a domain name, an address of four bytes or an address of
eight 16-bit pieces. Domain names are in ASCII; a name that ends in a number has to
be an address.

* `Host.parse`: the host of a special URL;
* `Host.parseOther`: the host of any other URL, which is not looked into.
-/

namespace StatusList.Url

/-- Why a text is no URL. -/
inductive Fault where
  /-- There is no scheme. -/
  | relative
  /-- There is no host where one has to be. -/
  | emptyHost
  /-- The port is no number of sixteen bits. -/
  | invalidPort
  /-- The host looks like an address of four bytes and is none. -/
  | invalidIpv4
  /-- The host looks like an address of eight pieces and is none. -/
  | invalidIpv6
  /-- The host is no domain name. -/
  | invalidDomain
  /-- The host has a character that it may not have. -/
  | invalidHostCharacter
  deriving DecidableEq, Repr, Inhabited

/-- The words for a fault. -/
def Fault.message : Fault → String
  | relative => "relative URL without a base"
  | emptyHost => "empty host"
  | invalidPort => "invalid port number"
  | invalidIpv4 => "invalid IPv4 address"
  | invalidIpv6 => "invalid IPv6 address"
  | invalidDomain => "invalid international domain name"
  | invalidHostCharacter => "invalid domain character"

/-- Where a URL points to. -/
inductive Host where
  /-- Nowhere in particular. -/
  | empty
  /-- A domain name, or the text of a host that is not looked into. -/
  | domain (name : List Char)
  /-- An address of four bytes. -/
  | ipv4 (address : Nat)
  /-- An address of eight pieces. -/
  | ipv6 (pieces : List Nat)
  deriving DecidableEq, Repr, Inhabited

namespace Host

/-! ## Addresses of four bytes -/

/-- The value of a digit in a base of at most sixteen. -/
def digitIn? (base : Nat) (c : Char) : Option Nat :=
  let value := if c.isDigit then some (c.toNat - 48)
    else if 'a' ≤ c ∧ c ≤ 'f' then some (c.toNat - 87)
    else if 'A' ≤ c ∧ c ≤ 'F' then some (c.toNat - 55)
    else none
  value.filter (· < base)

/-- The number that digits in a base give. -/
def numberIn? (base : Nat) (digits : List Char) : Option Nat :=
  digits.foldlM (fun n c => (digitIn? base c).map (n * base + ·)) 0

/-- A part of an address: decimal, octal after a zero, or in base sixteen after
    `0x`, where no digits at all are zero. -/
def addressPart? : List Char → Option Nat
  | [] => none
  | '0' :: 'x' :: digits => numberIn? 16 digits
  | '0' :: 'X' :: digits => numberIn? 16 digits
  | '0' :: c :: digits => numberIn? 8 (c :: digits)
  | digits => numberIn? 10 digits

/-- The parts of a name, without an empty one at its end. -/
def addressParts (name : List Char) : List (List Char) :=
  let parts := Domain.labels name
  if parts.getLast? = some [] then parts.dropLast else parts

/-- Whether a name ends in a number, and so has to be an address. -/
def endsInNumber (name : List Char) : Bool :=
  match (addressParts name).getLast? with
  | none => false
  | some part => (part ≠ [] ∧ part.all Char.isDigit) ∨ (addressPart? part).isSome

/-- The address of four bytes that a name gives: the last part fills the bytes
    that the others leave. -/
def ipv4? (name : List Char) : Option Nat := do
  let parts ← (addressParts name).mapM addressPart?
  let last ← parts.getLast?
  let first := parts.dropLast
  if 3 < first.length ∨ 1 <<< (8 * (4 - first.length)) ≤ last ∨ first.any (255 < ·) then none
  else some (first.zipIdx.foldl (fun address (part, i) => address + part <<< (8 * (3 - i))) last)

/-- The text of an address of four bytes. -/
def ipv4Text (address : Nat) : String :=
  ".".intercalate ([3, 2, 1, 0].map fun i => toString (address >>> (8 * i) % 256))

/-! ## Addresses of eight pieces -/

/-- A piece of one to four digits at the beginning of a text, or none, and what
    follows. -/
def piece (text : List Char) : List Char × List Char :=
  let digits := (text.take 4).takeWhile fun c => (digitIn? 16 c).isSome
  (digits, text.drop digits.length)

/-- The four bytes, in decimal with dots between them, that make two pieces. -/
def dotted? (text : List Char) : Option (List Nat) := do
  let bytes ← (Domain.labels text).mapM fun part =>
    if part = [] ∨ (part.head? = some '0' ∧ part.length ≠ 1) ∨ !part.all Char.isDigit then none
    else (numberIn? 10 part).filter (· ≤ 255)
  match bytes with
  | [a, b, c, d] => some [a * 256 + b, c * 256 + d]
  | _ => none

/-- The pieces of the rest of an address, each with whether zeros are left out
    before it. `before` counts the pieces so far, `gap` tells whether zeros have
    been left out, and the fuel is the length of the text. -/
def pieces? (gap : Bool) : (fuel before : Nat) → List Char → Option (List Nat × Option Nat)
  | _, _, [] => some ([], none)
  | 0, _, _ => none
  | fuel + 1, before, text =>
    if 8 ≤ before then none
    else if text.head? = some ':' then
      if gap then none
      else do
        let (rest, _) ← pieces? true fuel (before + 1) text.tail
        return (rest, some 0)
    else
      match piece text with
      | (digits, []) => do
        let value ← numberIn? 16 digits
        return ([value], none)
      | (digits, ':' :: rest) =>
        if digits = [] ∨ rest = [] then none
        else do
          let value ← numberIn? 16 digits
          let (rest, place) ← pieces? gap fuel (before + 1) rest
          return (value :: rest, place.map (· + 1))
      | (digits, '.' :: _) =>
        if digits = [] ∨ 6 < before then none else do return (← dotted? text, none)
      | _ => none

/-- The address of eight pieces that a text gives. -/
def ipv6? (text : List Char) : Option (List Nat) := do
  let (gap, text) ← match text with
    | ':' :: ':' :: rest => some (true, rest)
    | ':' :: _ => none
    | [] => none
    | [_] => none
    | text => some (false, text)
  let (pieces, place) ← pieces? gap text.length (if gap then 1 else 0) text
  let place := if gap then some 0 else place
  match place with
  | none => if pieces.length = 8 then some pieces else none
  | some place =>
    if 8 < pieces.length + 1 then none
    else some (pieces.take place ++ .replicate (8 - pieces.length) 0 ++ pieces.drop place)

/-- The longest run of two or more zeros among the pieces: where it begins and
    how long it is. The first of the longest counts. -/
def zeroRun (pieces : List Nat) : Option (Nat × Nat) :=
  (List.range pieces.length).foldl
    (fun best i =>
      let length := ((pieces.drop i).takeWhile (· = 0)).length
      -- A single zero is no run.
      let longest := (best.map Prod.snd).getD 1
      if longest < length then some (i, length) else best)
    none

/-- Pieces in base sixteen with colons between them. -/
def pieceTexts (pieces : List Nat) : String :=
  ":".intercalate (pieces.map fun n => .ofList (Nat.toDigits 16 n))

/-- The text of an address of eight pieces. -/
def ipv6Text (pieces : List Nat) : String :=
  match zeroRun pieces with
  | none => pieceTexts pieces
  | some (i, length) => pieceTexts (pieces.take i) ++ "::" ++ pieceTexts (pieces.drop (i + length))

/-! ## Texts to hosts -/

/-- The address of eight pieces of a text that begins with a bracket. -/
def parseBracketed (text : List Char) : Except Fault Host :=
  if text.getLast? ≠ some ']' then .error .invalidIpv6
  else
    match ipv6? text.tail.dropLast with
    | some pieces => .ok (ipv6 pieces)
    | none => .error .invalidIpv6

/-- The host of a special URL. -/
def parse (text : List Char) : Except Fault Host :=
  if text.head? = some '[' then parseBracketed text
  else
    match Utf8.decode (decode (String.ofList text).toUTF8.data.toList).toByteArray with
    | .error _ => .error .invalidDomain
    | .ok name =>
      match Domain.toAscii? name.toList with
      | none => .error .invalidDomain
      | some [] => .error .emptyHost
      | some name =>
        if endsInNumber name then
          match ipv4? name with
          | some address => .ok (ipv4 address)
          | none => .error .invalidIpv4
        else .ok (domain name)

/-- Whether a character may not stand in a host that is not looked into. -/
def isForbiddenOther (c : Char) : Bool :=
  c ∈ ['\x00', '\t', '\n', '\r', ' ', '#', '/', ':', '<', '>', '?', '@', '[', '\\', ']', '^', '|']

/-- The host of a URL that is not special. -/
def parseOther (text : List Char) : Except Fault Host :=
  if text.head? = some '[' then parseBracketed text
  else if text.any isForbiddenOther then .error .invalidHostCharacter
  else if text.isEmpty then .ok empty
  else .ok (domain (encode EncodeSet.controls text))

/-- The text of a host. -/
def text : Host → String
  | empty => ""
  | domain name => .ofList name
  | ipv4 address => ipv4Text address
  | ipv6 pieces => "[" ++ ipv6Text pieces ++ "]"

end Host

end StatusList.Url
