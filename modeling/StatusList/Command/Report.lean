import StatusList.Command.Invocation
import StatusList.Lookup.Client

/-!
# Reports

What the program has to say in the end is a *report*: the code with which it
exits, what it prints, and what it prints as a complaint. Zero tells that
something was found, one that something went wrong, and two that nothing was
found.

A command works on what it is given. It gets the texts of the environment and of
files from outside, and what is published by fetching.

* `Command.run`: the report of a command.
-/

namespace StatusList

/-- What the program says in the end. -/
structure Report where
  /-- The code with which it exits. -/
  exit : Nat
  /-- What it prints. -/
  output : String
  /-- What it complains about. -/
  complaint : Option String
  deriving DecidableEq, Repr, Inhabited

/-- Why a file gives no text. -/
inductive FileFault where
  /-- There is nothing of that name. -/
  | missing
  /-- It may not be read. -/
  | denied
  /-- The path goes on below a file. -/
  | notDirectory
  /-- It is a directory. -/
  | isDirectory
  /-- No file can have that name. -/
  | nameTooLong
  /-- Its bytes are no text. -/
  | notText
  /-- Something else, in words. -/
  | other (why : String)
  deriving DecidableEq, Repr, Inhabited

/-- The words for a fault. -/
def FileFault.message : FileFault → String
  | missing => "No such file or directory (os error 2)"
  | denied => "Permission denied (os error 13)"
  | notDirectory => "Not a directory (os error 20)"
  | isDirectory => "Is a directory (os error 21)"
  | nameTooLong => "File name too long (os error 36)"
  | notText => "stream did not contain valid UTF-8"
  | other why => why

/-- What is in files, or why they cannot be read. -/
abbrev Files := String → Except FileFault ByteArray

namespace Command

/-- Why a command fails. -/
inductive Failure where
  /-- A file cannot be read. -/
  | unreadable (path : String) (cause : FileFault)
  /-- Values and an encoded list do not give each other. -/
  | badEntries (cause : EntryError)
  /-- There is no entry of that index. -/
  | noEntry (index size : Nat)
  /-- A setting is refused. -/
  | badSetting (cause : BadSetting)
  deriving Repr, Inhabited

/-- The words for a failure. -/
def Failure.message : Failure → String
  | unreadable path cause => s!"failed to read file: {path}: {cause.message}"
  | badEntries cause => cause.message
  | noEntry index size => s!"index {index} is outside the list of {size} entries"
  | badSetting cause => cause.message

end Command

namespace Report

/-- The report that prints a text, or tells why there is none. -/
def ofResult : Except Command.Failure String → Report
  | .ok text => ⟨0, text ++ "\n", none⟩
  | .error cause => ⟨1, "", some cause.message⟩

/-- The report on a lookup; what is found may still fail to give a text. -/
def ofOutcome {α : Type} (render : α → Except Command.Failure String) : Outcome α → Report
  | .found value => ofResult (render value)
  | .notFound => ⟨2, "", some "NOT FOUND"⟩
  | .invalid =>
    ⟨1, "", some
      "INVALID: the document could not be fetched or decoded (run with -v for details)"⟩

/-- The report that arguments are refused. -/
def ofMisuse (cause : Command.Misuse) : Report := ⟨2, "", some s!"error: {cause.message}"⟩

end Report

namespace Command

/-- The text of a file. -/
def readText (files : Files) (path : String) : Except Failure String := do
  let bytes ← (files path).mapError (.unreadable path)
  match Utf8.decode bytes with
  | .ok text => return text
  | .error _ => throw (.unreadable path .notText)

/-- The encoded list that a source holds. -/
def Source.read (files : Files) : Source → Except Failure String
  | given encoded => .ok encoded
  | file path => readText files path

/-- The JSON of the values of a list. -/
def valuesJson (values : ByteArray) : Json :=
  .array (values.data.toList.map fun value => .ofNat value.toNat)

/-- What decoding shows. -/
def runDecode (files : Files) (width : Width) (source : Source) (index : Option Nat) :
    Except Failure String := do
  let values ← (unpackValues width (← source.read files)).mapError .badEntries
  match index with
  | none => return (valuesJson values).compact
  | some index =>
    if h : index < values.size then return toString (values.get index h)
    else throw (.noEntry index values.size)

/-- What encoding shows. -/
def runEncode (width : Width) (values : List UInt8) (aggregationUri : Option String) :
    Except Failure String := do
  let list ← (packValues width values).mapError .badEntries
  return (list.toClaim aggregationUri).toJson.pretty

/-- What is shown of a document. -/
def renderDocument (index : Option UInt32) (document : Document) : Except Failure String :=
  match index with
  | none => .ok document.toJson.pretty
  | some index =>
    match document.status? index with
    | some value => .ok (toString value)
    | none => .error (.noEntry index.toNat document.total)

/-- The report on fetching a list with settings, in which a base comes first if it
    is given. -/
def fetchWith (settings : Settings) (reference : String) (index : Option UInt32)
    (base : Option Url) : Fetching Report := do
  let client := Client.ofSettings { settings with listBase := base.or settings.listBase } none
  return .ofOutcome (renderDocument index) (← client.list (some reference))

/-- The report on fetching the lists of a pool. -/
def aggregationWith (settings : Settings) (pool : Option String) (base : Option Url) :
    Fetching Report := do
  let client := Client.ofSettings { settings with poolBase := base.or settings.poolBase } none
  return .ofOutcome (fun found => .ok found.toJson.pretty) (← client.aggregation pool)

/-- The report that needs the settings of an environment. -/
def withSettings (env : Environment) (report : Settings → Fetching Report) : Fetching Report :=
  match Settings.ofEnvironment env with
  | .ok settings => report settings
  | .error cause => return .ofResult (.error (.badSetting cause))

/-- The report of a command. -/
def run (env : Environment) (files : Files) : Command → Fetching Report
  | decode width source index => return .ofResult (runDecode files width source index)
  | encode width values aggregationUri => return .ofResult (runEncode width values aggregationUri)
  | fetch reference index base =>
    withSettings env fun settings => fetchWith settings reference index base
  | aggregation pool base => withSettings env fun settings => aggregationWith settings pool base

/-- The file that a command reads. -/
def file? : Command → Option String
  | decode _ (.file path) _ => some path
  | _ => none

end Command

/-! ## The program -/

/-- How the program is used. -/
def usage : String :=
  "Usage: tsl [-v] <command> [arguments]\n\n"
    ++ "  decode --bits N (--lst TEXT | --file FILE) [--index I]\n"
    ++ "  encode --bits N [--aggregation-uri URI] VALUES...\n"
    ++ "  fetch REFERENCE [--index I] [--base-url URL]\n"
    ++ "  aggregation [POOL] [--base-url URL]"

/-- The report of what the program is asked for. -/
def Invocation.run (env : Environment) (files : Files) : Invocation → Fetching Report
  | command c => c.run env files
  | version => return ⟨0, "tsl 0.1.0\n", none⟩
  | help => return ⟨0, usage ++ "\n", none⟩
  | nothing => return ⟨2, "", some usage⟩

/-- The report of arguments. -/
def runArguments (env : Environment) (files : Files) (arguments : List String) :
    Fetching Report :=
  match Invocation.ofArguments arguments with
  | .ok invocation => invocation.run env files
  | .error cause => return .ofMisuse cause

end StatusList
