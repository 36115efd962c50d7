/-!
# Arguments

The arguments of a command are *options*, each with a value, and *words* in any
order. The value of an option is the next argument, or stands behind an equals
sign; only there may it begin with a hyphen. After two hyphens all arguments are
words.

A *grammar* tells which options a command has, and what becomes of them and of
the words. Whatever the command, `-v` and `--verbose` are taken, and `-h` and
`--help` end the reading.

* `Grammar.read`: what arguments give.
-/

namespace StatusList.Command

/-- Why arguments are refused. -/
inductive Misuse where
  /-- There is no such command. -/
  | unknownCommand (word : String)
  /-- There is no such option. -/
  | unknownOption (argument : String)
  /-- The option has no value. -/
  | noValue (option : String)
  /-- The option has a value that means nothing. -/
  | badValue (option value : String)
  /-- The option comes twice. -/
  | repeated (option : String)
  /-- The option does not go with the other. -/
  | conflict (option other : String)
  /-- There is a word too many. -/
  | extraWord (word : String)
  /-- Something that has to be there is missing. -/
  | missing (what : String)
  deriving DecidableEq, Repr, Inhabited

/-- The words for refused arguments. -/
def Misuse.message : Misuse → String
  | unknownCommand word => s!"there is no command '{word}'"
  | unknownOption argument => s!"there is no option '{argument}'"
  | noValue option => s!"'--{option}' needs a value"
  | badValue option value => s!"'{value}' is no value for '{option}'"
  | repeated option => s!"'--{option}' comes twice"
  | conflict option other => s!"'--{option}' does not go with '--{other}'"
  | extraWord word => s!"'{word}' is too much"
  | missing what => s!"{what} is missing"

/-- An option of a command, read into a draft. -/
structure Flag (δ : Type) where
  /-- The name, without hyphens. -/
  name : String
  /-- Put a value into the draft. -/
  put : δ → String → Except Misuse δ

/-- What becomes of the arguments of a command. -/
structure Grammar (δ α : Type) where
  /-- The options. -/
  flags : List (Flag δ)
  /-- Put a word into the draft. -/
  word : δ → String → Except Misuse δ
  /-- The draft without arguments. -/
  blank : δ
  /-- The value of a draft. -/
  finish : δ → Except Misuse α

/-! ## One argument -/

/-- What an argument looks like. -/
inductive Argument where
  /-- Two hyphens. -/
  | endOfOptions
  /-- An option, and what stands behind its equals sign. -/
  | long (name : String) (value : Option String)
  /-- Letters behind one hyphen. -/
  | short (letters : List Char)
  /-- Anything else. -/
  | word (text : String)
  deriving DecidableEq, Repr, Inhabited

/-- What an argument looks like. -/
def Argument.ofText (text : String) : Argument :=
  match text.toList with
  | ['-', '-'] => .endOfOptions
  | '-' :: '-' :: rest =>
    match rest.dropWhile (· ≠ '=') with
    | [] => .long (.ofList rest) none
    | _ :: value => .long (.ofList (rest.takeWhile (· ≠ '='))) (some (.ofList value))
  | '-' :: c :: letters => .short (c :: letters)
  | _ => .word text

/-- Whether letters behind one hyphen ask for help; no others are known but those
    that ask for more to be told. -/
def shortHelp (letters : List Char) : Except Misuse Bool :=
  match letters.dropWhile (· = 'v') with
  | [] => .ok false
  | 'h' :: _ => .ok true
  | _ => .error (.unknownOption (.ofList ('-' :: letters)))

namespace Grammar

variable {δ α : Type}

/-- Put words into a draft. -/
def readWords (g : Grammar δ α) (draft : δ) : List String → Except Misuse δ
  | [] => .ok draft
  | text :: rest => do readWords g (← g.word draft text) rest

/-- Put arguments into a draft. There is no draft where they ask for help. -/
def readInto (g : Grammar δ α) (draft : δ) : List String → Except Misuse (Option δ)
  | [] => .ok (some draft)
  | text :: rest =>
    match Argument.ofText text with
    | .endOfOptions => (g.readWords draft rest).map some
    | .word text => do readInto g (← g.word draft text) rest
    | .short letters => do
      if ← shortHelp letters then return none
      readInto g draft rest
    | .long name value =>
      match g.flags.find? (·.name = name), value, rest with
      | some flag, some value, rest => do readInto g (← flag.put draft value) rest
      | some flag, none, next :: rest =>
        match Argument.ofText next with
        | .word value => do readInto g (← flag.put draft value) rest
        | _ => .error (.noValue name)
      | some _, none, [] => .error (.noValue name)
      | none, none, rest =>
        if name = "verbose" then readInto g draft rest
        else if name = "help" then .ok none
        else .error (.unknownOption text)
      | none, some _, _ => .error (.unknownOption text)

/-- What arguments give, or nothing where they ask for help. -/
def read (g : Grammar δ α) (arguments : List String) : Except Misuse (Option α) := do
  match ← g.readInto g.blank arguments with
  | none => return none
  | some draft => return some (← g.finish draft)

end Grammar

/-! ## Drafts -/

/-- The value of an option, which must not have one yet. -/
def once {α : Type} (name : String) (reader : String → Option α) (old : Option α)
    (text : String) : Except Misuse (Option α) :=
  match old, reader text with
  | some _, _ => .error (.repeated name)
  | none, none => .error (.badValue name text)
  | none, some value => .ok (some value)

/-- What has to be there. -/
def need {α : Type} (what : String) : Option α → Except Misuse α
  | some value => .ok value
  | none => .error (.missing what)

end StatusList.Command
