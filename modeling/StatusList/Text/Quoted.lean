import StatusList.Text.Printable

/-!
# Quoted texts

Where a message shows a text, it stands between quotation marks, with a
backslash before a quotation mark or a backslash, short names for the common
control characters, and the number of every other character that has no shape
of its own.
-/

namespace StatusList.Text

/-- The digits of a number in base sixteen, in lower case. -/
def hexDigits (n : Nat) : String := .ofList (Nat.toDigits 16 n)

/-- A character as a quoted text shows it. -/
def quoteChar (c : Char) : String :=
  match c with
  | '"' => "\\\""
  | '\\' => "\\\\"
  | '\t' => "\\t"
  | '\n' => "\\n"
  | '\r' => "\\r"
  | '\x00' => "\\0"
  | c => if isPrintable c then c.toString else "\\u\x7b" ++ hexDigits c.toNat ++ "\x7d"

/-- A text between quotation marks. -/
def quote (s : String) : String := s.toList.foldl (fun t c => t ++ quoteChar c) "\"" ++ "\""

end StatusList.Text
