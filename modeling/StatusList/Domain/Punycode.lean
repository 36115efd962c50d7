/-!
# Punycode

A label of a domain name that is not ASCII is written as its ASCII characters
and a number for each other character. The number tells how far the character
and its place are from those before, in digits whose weights adapt to what has
been written.

* `Punycode.encode`: the ASCII form of a label;
* `Punycode.decode?`: the label of an ASCII form.
-/

namespace StatusList.Domain.Punycode

/-- The character of a digit in base 36. -/
def digit (n : Nat) : Char := if n < 26 then .ofNat (97 + n) else .ofNat (22 + n)

/-- The digit of a character. -/
def digit? (c : Char) : Option Nat :=
  if 'a' ≤ c ∧ c ≤ 'z' then some (c.toNat - 97)
  else if 'A' ≤ c ∧ c ≤ 'Z' then some (c.toNat - 65)
  else if '0' ≤ c ∧ c ≤ '9' then some (c.toNat - 22)
  else none

/-- The least digit at place `k` that does not end a number. -/
def threshold (bias k : Nat) : Nat :=
  if k ≤ bias then 1 else if bias + 26 ≤ k then 26 else k - bias

/-- The bias after a number `delta`, where `count` characters have been told. -/
def adapt (delta count : Nat) (first : Bool) : Nat :=
  let delta := if first then delta / 700 else delta / 2
  go 8 0 (delta + delta / count)
where
  /-- Divide until the number is small. The fuel bounds the divisions. -/
  go : Nat → Nat → Nat → Nat
    | 0, k, delta => k + 36 * delta / (delta + 38)
    | fuel + 1, k, delta =>
      if 455 < delta then go fuel (k + 36) (delta / 35) else k + 36 * delta / (delta + 38)

/-- The digits of a number. The fuel bounds their count. -/
def number (bias : Nat) : (fuel k n : Nat) → List Char
  | 0, _, _ => []
  | fuel + 1, k, n =>
    let t := threshold bias k
    if n < t then [digit n]
    else digit (t + (n - t) % (36 - t)) :: number bias fuel (k + 36) ((n - t) / (36 - t))

/-- What has been written so far. -/
structure State where
  /-- The characters. -/
  out : List Char
  /-- How far the next character is. -/
  delta : Nat
  /-- The bias of the next number. -/
  bias : Nat
  /-- How many characters have been told. -/
  told : Nat

/-- Tell the places of character `n`, one after the other. -/
def tell (basic n : Nat) (s : State) (c : Char) : State :=
  if c.toNat < n then { s with delta := s.delta + 1 }
  else if c.toNat = n then
    { out := s.out ++ number s.bias 16 36 s.delta
      delta := 0
      bias := adapt s.delta (s.told + 1) (s.told = basic)
      told := s.told + 1 }
  else s

/-- The ASCII form of a label. -/
def encode (label : List Char) : List Char :=
  let basic := label.filter fun c => c.toNat < 0x80
  let others := ((label.filter fun c => 0x80 ≤ c.toNat).map Char.toNat).mergeSort.eraseDups
  let start : List Char := if basic.isEmpty then [] else basic ++ ['-']
  let (_, s) := others.foldl
    (fun ((next, s) : Nat × State) n =>
      -- Each character that does not occur is passed over at every place.
      let s := { s with delta := s.delta + (n - next) * (s.told + 1) }
      let s := label.foldl (tell basic.length n) s
      (n + 1, { s with delta := s.delta + 1 }))
    (0x80, ⟨start, 0, 72, basic.length⟩)
  s.out

/-- The greatest number that may be told. -/
def greatest : Nat := 0xFFFFFFFF

/-- The number at the beginning of a text, added to `n`, and what follows. -/
def number? (bias : Nat) : (k weight n : Nat) → List Char → Option (Nat × List Char)
  | _, _, _, [] => none
  | k, weight, n, c :: rest =>
    match digit? c with
    | none => none
    | some d =>
      let t := threshold bias k
      let n := n + d * weight
      if greatest < n then none
      else if d < t then some (n, rest)
      else if greatest < weight * (36 - t) then none
      else number? bias (k + 36) (weight * (36 - t)) n rest

/-- Put the characters that `text` tells among those of `out`. The fuel is the
    length of the text. -/
def place : (fuel : Nat) → (text out : List Char) → (n i bias : Nat) → Option (List Char)
  | _, [], out, _, _, _ => some out
  | 0, _, _, _, _, _ => none
  | fuel + 1, text, out, n, i, bias =>
    match number? bias 36 1 i text with
    | none => none
    | some (j, rest) =>
      let count := out.length + 1
      let n := n + j / count
      if h : n.isValidChar then
        place fuel rest (out.insertIdx (j % count) (.ofNatAux n h)) n (j % count + 1)
          (adapt (j - i) count (i = 0))
      else
        none

/-- The label of an ASCII form. A hyphen that no character is before is no digit. -/
def decode? (text : List Char) : Option (List Char) :=
  let tail := (text.reverse.takeWhile (· ≠ '-')).reverse
  match text.take (text.length - tail.length) with
  | ['-'] => none
  | start => place tail.length tail start.dropLast 0x80 0 72

end StatusList.Domain.Punycode
