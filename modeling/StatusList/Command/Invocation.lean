import StatusList.Command.Entries
import StatusList.Command.Grammar
import StatusList.Url.Reader

/-!
# Invocations

The program is *invoked* with arguments: they name one of its commands and say
what it is to work on, or ask for the version of the program or for help.

* `Invocation.ofArguments`: what arguments ask for.
-/

namespace StatusList

/-- Where an encoded list is. -/
inductive Command.Source where
  /-- Among the arguments. -/
  | given (encoded : String)
  /-- In a file. -/
  | file (path : String)
  deriving DecidableEq, Repr, Inhabited

/-- Something to be done. -/
inductive Command where
  /-- Show the entries of an encoded list, or one of them. -/
  | decode (width : Width) (source : Command.Source) (index : Option Nat)
  /-- Encode values. -/
  | encode (width : Width) (values : List UInt8) (aggregationUri : Option String)
  /-- Show the entries of a published list, or one of them. -/
  | fetch (reference : String) (index : Option UInt32) (base : Option Url)
  /-- Show where the lists of a pool are published. -/
  | aggregation (pool : Option String) (base : Option Url)
  deriving DecidableEq, Repr, Inhabited

/-- What the program is asked for. -/
inductive Invocation where
  /-- A command. -/
  | command (command : Command)
  /-- The version of the program. -/
  | version
  /-- Help. -/
  | help
  /-- Nothing at all. -/
  | nothing
  deriving DecidableEq, Repr, Inhabited

namespace Command

/-! ## Values -/

/-- A width, if the text gives one. -/
def width? (text : String) : Option Width := (readWidth text).toOption

/-- The path of a file is not empty. -/
def path? (text : String) : Option String := if text.isEmpty then none else some text

/-- An index of 64 bits. -/
def longIndex? (text : String) : Option Nat := Decimal.natural? (UInt64.size - 1) text

/-- An index of 32 bits. -/
def index? (text : String) : Option UInt32 :=
  (Decimal.integer? (UInt32.size - 1) text).map Nat.toUInt32

/-- The value of an entry. -/
def value? (text : String) : Option UInt8 := (Decimal.integer? 255 text).map Nat.toUInt8

/-! ## Decoding -/

/-- What has been said about decoding. -/
structure DecodeDraft where
  width : Option Width
  given : Option String
  file : Option String
  index : Option Nat

/-- The arguments of decoding. -/
def decodeGrammar : Grammar DecodeDraft Command where
  flags := [
    ⟨"bits", fun d text => return { d with width := ← once "bits" width? d.width text }⟩,
    ⟨"lst", fun d text => return { d with given := ← once "lst" some d.given text }⟩,
    ⟨"file", fun d text => return { d with file := ← once "file" path? d.file text }⟩,
    ⟨"index", fun d text => return { d with index := ← once "index" longIndex? d.index text }⟩]
  word := fun _ text => .error (.extraWord text)
  blank := ⟨none, none, none, none⟩
  finish := fun d => do
    let source ← match d.given, d.file with
      | some _, some _ => throw (.conflict "lst" "file")
      | some encoded, none => pure (.given encoded)
      | none, some path => pure (.file path)
      | none, none => throw (.missing "--lst or --file")
    return .decode (← need "--bits" d.width) source d.index

/-! ## Encoding -/

/-- What has been said about encoding; the latest value is first. -/
structure EncodeDraft where
  width : Option Width
  latest : List UInt8
  aggregationUri : Option String

/-- The arguments of encoding. -/
def encodeGrammar : Grammar EncodeDraft Command where
  flags := [
    ⟨"bits", fun d text => return { d with width := ← once "bits" width? d.width text }⟩,
    ⟨"aggregation-uri", fun d text =>
      return { d with aggregationUri := ← once "aggregation-uri" some d.aggregationUri text }⟩]
  word := fun d text =>
    match value? text with
    | some value => .ok { d with latest := value :: d.latest }
    | none => .error (.badValue "an entry" text)
  blank := ⟨none, [], none⟩
  finish := fun d => do
    if d.latest = [] then throw (.missing "a value")
    return .encode (← need "--bits" d.width) d.latest.reverse d.aggregationUri

/-! ## Fetching -/

/-- What has been said about fetching. -/
structure FetchDraft where
  reference : Option String
  index : Option UInt32
  base : Option Url

/-- A first word, after which there is no other. -/
def onlyWord (old : Option String) (text : String) : Except Misuse (Option String) :=
  if old.isSome then .error (.extraWord text) else .ok (some text)

/-- The arguments of fetching a list. -/
def fetchGrammar : Grammar FetchDraft Command where
  flags := [
    ⟨"index", fun d text => return { d with index := ← once "index" index? d.index text }⟩,
    ⟨"base-url", fun d text => return { d with base := ← once "base-url" Url.parse? d.base text }⟩]
  word := fun d text => return { d with reference := ← onlyWord d.reference text }
  blank := ⟨none, none, none⟩
  finish := fun d => return .fetch (← need "a reference" d.reference) d.index d.base

/-- The arguments of fetching the lists of a pool. -/
def aggregationGrammar : Grammar FetchDraft Command where
  flags := [
    ⟨"base-url", fun d text => return { d with base := ← once "base-url" Url.parse? d.base text }⟩]
  word := fun d text => return { d with reference := ← onlyWord d.reference text }
  blank := ⟨none, none, none⟩
  finish := fun d => return .aggregation d.reference d.base

/-! ## Commands by name -/

/-- The reading of the arguments of a command. -/
def reader? (name : String) : Option (List String → Except Misuse (Option Command)) :=
  match name with
  | "decode" => some decodeGrammar.read
  | "encode" => some encodeGrammar.read
  | "fetch" => some fetchGrammar.read
  | "aggregation" => some aggregationGrammar.read
  | _ => none

end Command

namespace Invocation

open Command (Argument Misuse)

/-- The help on something, which has to be a command. -/
def ofHelp : List String → Except Misuse Invocation
  | [] => .ok help
  | [name] =>
    if (Command.reader? name).isSome ∨ name = "help" then .ok help
    else .error (.unknownCommand name)
  | _ :: word :: _ => .error (.extraWord word)

/-- What letters behind one hyphen ask for before there is a command, if it is
    anything but that more is told. -/
def ofLetters (letters : List Char) : Except Misuse (Option Invocation) :=
  match letters.dropWhile (· = 'v') with
  | [] => .ok none
  | 'V' :: _ => .ok (some version)
  | 'h' :: _ => .ok (some help)
  | _ => .error (.unknownOption (.ofList ('-' :: letters)))

/-- What arguments without a command ask for; `bare` tells whether there were
    none at all. -/
def withoutCommand (bare : Bool) : Except Misuse Invocation :=
  if bare then .ok nothing else .error (.missing "a command")

/-- What arguments ask for; `bare` tells whether there was nothing before them. -/
def ofRest (bare : Bool) : List String → Except Misuse Invocation
  | [] => withoutCommand bare
  | text :: rest =>
    match Argument.ofText text with
    | .endOfOptions =>
      match rest with
      | [] => withoutCommand bare
      | word :: _ => .error (.extraWord word)
    | .short letters => do
      match ← ofLetters letters with
      | some invocation => return invocation
      | none => ofRest false rest
    | .long "verbose" none => ofRest false rest
    | .long "version" none => .ok version
    | .long "help" none => .ok help
    | .long _ _ => .error (.unknownOption text)
    | .word name =>
      if name = "help" then ofHelp rest
      else
        match Command.reader? name with
        | none => .error (.unknownCommand name)
        | some reader => return ((← reader rest).map Invocation.command).getD help

/-- What arguments ask for. -/
def ofArguments (arguments : List String) : Except Misuse Invocation := ofRest true arguments

end Invocation

end StatusList
