import StatusList.Json.Literal

/-!
# Tokens

A JSON text is a sequence of *tokens* with white space between them. Cutting it
up does not stop at what is no JSON: a token may be *broken*, or *stray*, and
whether that matters is for the one to say who looks for a value there.

* `Token.ofText`: the tokens of a text, up to the first that is broken or stray.
-/

namespace StatusList.Json

/-- A value that is one token. -/
inductive Atom where
  | null
  | boolean (value : Bool)
  | number (numeral : Numeral)
  | string (literal : Literal)
  deriving Inhabited

/-- A piece of a JSON text. -/
inductive Token where
  | openBracket
  | closeBracket
  | openBrace
  | closeBrace
  | comma
  | colon
  /-- A value that is one token. -/
  | atom (atom : Atom)
  /-- The beginning of a string that is none. -/
  | brokenString (broken : Broken)
  /-- The beginning of a number or a word that is none. -/
  | broken (broken : Broken)
  /-- A byte that begins no token. -/
  | stray
  deriving Inhabited

namespace Token

/-- Whether a byte is white space between tokens. -/
def isSpace (b : UInt8) : Bool := b = 32 ∨ b = 9 ∨ b = 10 ∨ b = 13

/-- What follows the letters of `word` at the beginning of a text. -/
def word : (word : List UInt8) → List UInt8 → Except Broken (List UInt8)
  | [], text => .ok text
  | _ :: _, [] => .error ⟨.ended .value, .ended .value⟩
  | w :: word', b :: text =>
    if w = b then word word' text else .error ⟨.unknownWord, .unknownWord⟩

/-- The token of a word whose first letter has been read, and what follows. -/
def ofWord (letters : List UInt8) (atom : Atom) (text : List UInt8) : Token × List UInt8 :=
  match word letters text with
  | .ok rest => (.atom atom, rest)
  | .error fault => (.broken fault, [])

/-- The token of a string whose opening mark has been read, and what follows. -/
def ofString (text : List UInt8) : Token × List UInt8 :=
  match Literal.pass text with
  | .ok rest => (.atom (.string (Literal.read text)), rest)
  | .error fault =>
    -- Reading may meet a fault before the one that passing over ends with.
    match Literal.read text with
    | .error reading => (.brokenString ⟨reading, fault⟩, [])
    | .ok _ => (.brokenString ⟨fault, fault⟩, [])

/-- The token of a number, and what follows. -/
def ofNumber (text : List UInt8) : Token × List UInt8 :=
  match Numeral.scan text with
  | .ok (numeral, rest) => (.atom (.number numeral), rest)
  | .error fault => (.broken fault, [])

/-- The token that begins with byte `b`, and what follows it; nothing does after
    a broken or a stray token. -/
def next (b : UInt8) (text : List UInt8) : Token × List UInt8 :=
  match b with
  | 91 => (.openBracket, text)
  | 93 => (.closeBracket, text)
  | 123 => (.openBrace, text)
  | 125 => (.closeBrace, text)
  | 44 => (.comma, text)
  | 58 => (.colon, text)
  | 34 => ofString text
  | 110 => ofWord [117, 108, 108] .null text
  | 116 => ofWord [114, 117, 101] (.boolean true) text
  | 102 => ofWord [97, 108, 115, 101] (.boolean false) text
  | b => if b = 45 ∨ Numeral.isDigit b then ofNumber (b :: text) else (.stray, [])

/-! ## What follows is shorter -/

theorem length_of_word {letters text rest : List UInt8} (h : word letters text = .ok rest) :
    rest.length ≤ text.length := by
  induction letters generalizing text with
  | nil => simp_all [word]
  | cons w letters ih =>
    cases text with
    | nil => simp [word] at h
    | cons b text =>
      simp only [word] at h
      split at h
      · have := ih h
        simp only [List.length_cons]
        omega
      · simp at h

theorem length_next (b : UInt8) (text : List UInt8) : (next b text).2.length ≤ text.length := by
  have hword : ∀ letters atom, (ofWord letters atom text).2.length ≤ text.length := by
    intro letters atom
    unfold ofWord
    split
    · rename_i h
      exact length_of_word h
    · simp
  unfold next
  split
  any_goals exact Nat.le_refl _
  any_goals exact hword _ _
  · unfold ofString
    split
    · rename_i h
      exact Nat.le_of_lt (Literal.length_of_pass h)
    · split <;> simp
  · split
    · unfold ofNumber
      split
      · rename_i h
        have := Numeral.length_of_scan h
        simp only [List.length_cons] at this ⊢
        omega
      · simp
    · simp

/-! ## Texts -/

/-- Add the tokens of a text to those of `done`, the latest of which is first. -/
def ofTextOnto (done : List Token) : List UInt8 → List Token
  | [] => done
  | b :: text =>
    if isSpace b then ofTextOnto done text
    else
      have := length_next b text
      ofTextOnto ((next b text).1 :: done) (next b text).2
termination_by text => text.length
decreasing_by all_goals simp only [List.length_cons]; omega

/-- The tokens of a text, up to the first that is broken or stray. -/
def ofText (text : List UInt8) : List Token := (ofTextOnto [] text).reverse

end Token

end StatusList.Json
