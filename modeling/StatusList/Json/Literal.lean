import StatusList.Json.Number
import StatusList.Text.Utf8

/-!
# String literals

A string literal ends at the first quotation mark that no backslash escapes.
Where its text matters it is *read*: its escapes have to give characters and its
bytes have to be UTF-8. Where it does not matter it is *passed over*, and only
the form of the escapes is looked at.
-/

namespace StatusList.Json

/-- The text of a string literal, or why it has none. -/
abbrev Literal := Except Fault String

namespace Literal

/-- The quotation mark and the backslash. -/
def mark : UInt8 := 34

@[inherit_doc mark]
def backslash : UInt8 := 92

/-- The value of a digit in base sixteen. -/
def hexDigit? (b : UInt8) : Option Nat :=
  if 48 ≤ b ∧ b ≤ 57 then some (b.toNat - 48)
  else if 97 ≤ b ∧ b ≤ 102 then some (b.toNat - 87)
  else if 65 ≤ b ∧ b ≤ 70 then some (b.toNat - 55)
  else none

/-- The value of four digits in base sixteen. -/
def hex? (a b c d : UInt8) : Option Nat := do
  return (((← hexDigit? a) * 16 + (← hexDigit? b)) * 16 + (← hexDigit? c)) * 16 + (← hexDigit? d)

/-- What a letter after a backslash stands for. -/
def escaped? (b : UInt8) : Option UInt8 :=
  match b with
  | 34 => some 34
  | 92 => some 92
  | 47 => some 47
  | 98 => some 8
  | 102 => some 12
  | 110 => some 10
  | 114 => some 13
  | 116 => some 9
  | _ => none

/-- The UTF-8 of a code point. -/
def utf8 (n : Nat) : List UInt8 := String.utf8EncodeChar (.ofNat n)

/-- Whether a code unit is the first half of a surrogate pair, or the second. -/
def isFirstHalf (n : Nat) : Bool := 0xD800 ≤ n ∧ n ≤ 0xDBFF

@[inherit_doc isFirstHalf]
def isSecondHalf (n : Nat) : Bool := 0xDC00 ≤ n ∧ n ≤ 0xDFFF

/-- The text of a literal after its opening mark, and what follows the closing
    one; `done` are the bytes so far, the latest first. -/
def readOnto (done : List UInt8) : List UInt8 → Except Fault (List UInt8 × List UInt8)
  | [] => .error (.ended .string)
  | [92] => .error (.ended .string)
  | 92 :: 117 :: a :: b :: c :: d :: rest =>
    match hex? a b c d with
    | none => .error .invalidEscape
    | some n =>
      if isSecondHalf n then .error .loneSurrogate
      else if !isFirstHalf n then readOnto ((utf8 n).reverse ++ done) rest
      -- The second half of a pair has to follow the first at once.
      else match rest with
        | [] => .error (.ended .string)
        | [92] => .error (.ended .string)
        | 92 :: 117 :: a :: b :: c :: d :: rest =>
          match hex? a b c d with
          | none => .error .invalidEscape
          | some m =>
            if isSecondHalf m then
              readOnto ((utf8 (0x10000 + (n - 0xD800) * 0x400 + (m - 0xDC00))).reverse ++ done) rest
            else .error .loneSurrogate
        | 92 :: 117 :: _ => .error (.ended .string)
        | _ => .error .halfPair
  | 92 :: 117 :: _ => .error (.ended .string)
  | 92 :: e :: rest =>
    match escaped? e with
    | some b => readOnto (b :: done) rest
    | none => .error .invalidEscape
  | b :: rest =>
    if b = mark then .ok (done.reverse, rest)
    else if b < 32 then .error .controlCharacter
    else readOnto (b :: done) rest

/-- The text of a literal after its opening mark. -/
def read (text : List UInt8) : Literal := do
  let (bytes, _) ← readOnto [] text
  match Utf8.decode bytes.toByteArray with
  | .ok s => return s
  | .error _ => throw .invalidCodePoint

/-- What follows a literal after its opening mark. -/
def pass : List UInt8 → Except Fault (List UInt8)
  | [] => .error (.ended .string)
  | [92] => .error (.ended .string)
  | 92 :: 117 :: a :: b :: c :: d :: rest =>
    match hex? a b c d with
    | none => .error .invalidEscape
    | some _ => pass rest
  | 92 :: 117 :: _ => .error (.ended .string)
  | 92 :: e :: rest => if (escaped? e).isSome then pass rest else .error .invalidEscape
  | b :: rest =>
    if b = mark then .ok rest
    else if b < 32 then .error .controlCharacter
    else pass rest

theorem length_of_pass {text rest : List UInt8} (h : pass text = .ok rest) :
    rest.length < text.length := by
  fun_induction pass text <;> simp_all <;> omega

end Literal

end StatusList.Json
