/-!
# UTF-8

Bytes are read as text only if they are UTF-8. Where they are not, the *fault*
tells the first byte that begins no character and how much of the byte string it
spoils.

* `Utf8.decode_toUTF8`: the bytes of a text read back as the text.
-/

namespace StatusList.Utf8

/-- Where and how a byte string stops being UTF-8. -/
inductive Fault where
  /-- The `length` bytes from `index` on begin no character. -/
  | invalid (index length : Nat)
  /-- The byte string ends inside the character that begins at `index`. -/
  | incomplete (index : Nat)
  deriving DecidableEq, Repr, Inhabited

/-- The first byte that begins no character. -/
def Fault.index : Fault → Nat
  | invalid index _ => index
  | incomplete index => index

/-- The words for a fault. -/
def Fault.message : Fault → String
  | invalid index length => s!"invalid utf-8 sequence of {length} bytes from index {index}"
  | incomplete index => s!"incomplete utf-8 byte sequence from index {index}"

/-- Whether a byte can follow the first byte of a character. -/
def isTail (b : UInt8) : Bool := 0x80 ≤ b ∧ b ≤ 0xBF

/-- Whether `second` can follow `first`, the first of three bytes: there is no
    longer spelling of what two bytes can tell, and no surrogate. -/
def isSecondOfThree (first second : UInt8) : Bool :=
  isTail second ∧ (first = 0xE0 → 0xA0 ≤ second) ∧ (first = 0xED → second ≤ 0x9F)

/-- Whether `second` can follow `first`, the first of four bytes: there is no
    longer spelling of what three bytes can tell, and nothing past U+10FFFF. -/
def isSecondOfFour (first second : UInt8) : Bool :=
  isTail second ∧ (first = 0xF0 → 0x90 ≤ second) ∧ (first = 0xF4 → second ≤ 0x8F)

/-- The fault of a byte string whose first `index` bytes have been looked at; if
    there is none, the end counts as incomplete. -/
def locate (index : Nat) : List UInt8 → Fault
  | [] => .incomplete index
  | a :: rest =>
    if a < 0x80 then locate (index + 1) rest
    else if 0xC2 ≤ a ∧ a ≤ 0xDF then
      match rest with
      | [] => .incomplete index
      | b :: rest => if isTail b then locate (index + 2) rest else .invalid index 1
    else if 0xE0 ≤ a ∧ a ≤ 0xEF then
      match rest with
      | [] => .incomplete index
      | b :: rest =>
        if !isSecondOfThree a b then .invalid index 1
        else match rest with
          | [] => .incomplete index
          | c :: rest => if isTail c then locate (index + 3) rest else .invalid index 2
    else if 0xF0 ≤ a ∧ a ≤ 0xF4 then
      match rest with
      | [] => .incomplete index
      | b :: rest =>
        if !isSecondOfFour a b then .invalid index 1
        else match rest with
          | [] => .incomplete index
          | c :: rest =>
            if !isTail c then .invalid index 2
            else match rest with
              | [] => .incomplete index
              | d :: rest => if isTail d then locate (index + 4) rest else .invalid index 3
    else .invalid index 1

/-- The text that a byte string is the UTF-8 of. -/
def decode (bytes : ByteArray) : Except Fault String :=
  match String.fromUTF8? bytes with
  | some text => .ok text
  | none => .error (locate 0 bytes.data.toList)

/-- The text of a byte string in which every ill-formed part is replaced. -/
def decodeLossy (bytes : List UInt8) : String :=
  go bytes.length bytes ""
where
  /-- Add the text of `bytes` to `text`. The fuel is the number of bytes. -/
  go : (fuel : Nat) → List UInt8 → String → String
    | 0, _, text => text
    | fuel + 1, bytes, text =>
      match String.fromUTF8? bytes.toByteArray with
      | some rest => text ++ rest
      | none =>
        match locate 0 bytes with
        | .incomplete index =>
          text ++ (String.fromUTF8? (bytes.take index).toByteArray).getD "" ++ "\uFFFD"
        | .invalid index length =>
          go fuel (bytes.drop (index + length))
            (text ++ (String.fromUTF8? (bytes.take index).toByteArray).getD "" ++ "\uFFFD")

theorem decode_toUTF8 (s : String) : decode s.toUTF8 = .ok s := by
  have h : s.toUTF8.IsValidUTF8 := s.isValidUTF8
  simp only [decode, String.fromUTF8?, h, ↓reduceDIte]
  rfl

end StatusList.Utf8
