import StatusList.Decimal.Natural
import StatusList.Text.Blank
import StatusList.Url.Reader

/-!
# Settings

Where lookups go, and how, is set by the *environment*: a text for each name that
is set. A setting that is blank counts as not set. Only a text that should be a
URL and is none is refused; any other setting that cannot be read has no effect.
-/

namespace StatusList

/-- The texts that are set, by name. -/
abbrev Environment := String → Option String

/-- A setting that is refused: its name, or its text where it has no name, and
    why the text is no URL. -/
structure BadSetting where
  /-- What is set. -/
  name : String
  /-- Why its text is no URL. -/
  fault : Url.Fault
  deriving DecidableEq, Repr, Inhabited

/-- The words for a setting that is refused. -/
def BadSetting.message (s : BadSetting) : String := s!"invalid URL for {s.name}: {s.fault.message}"

/-- Where lookups go. -/
structure Settings where
  /-- What the identifiers of status lists are below. -/
  listBase : Option Url
  /-- What pools are below. -/
  poolBase : Option Url
  /-- The pool that is meant when none is named. -/
  pool : Option String
  /-- After how many seconds asking is given up. -/
  timeout : Nat
  /-- Whether presentations are annotated. -/
  annotates : Bool
  deriving DecidableEq, Repr, Inhabited

namespace Settings

/-- The settings where nothing is set. -/
def standard : Settings := ⟨none, none, none, 30, true⟩

/-- The names that settings are set under. -/
def names : List String :=
  ["STATUS_LIST_BASE_URL", "STATUS_LIST_AGGREGATION_URL", "STATUS_LIST_POOL_ID",
    "STATUS_LIST_TIMEOUT_SECS", "STATUS_LIST_ENABLED"]

/-- The URL that is set under a name. -/
def urlAt (env : Environment) (name : String) : Except BadSetting (Option Url) :=
  match (env name).filter fun text => !Text.allBlank text with
  | none => .ok none
  | some text => ((Url.parse (Text.trim text)).map some).mapError (⟨name, ·⟩)

/-- The settings of an environment. -/
def ofEnvironment (env : Environment) : Except BadSetting Settings := do
  return {
    listBase := ← urlAt env "STATUS_LIST_BASE_URL"
    poolBase := ← urlAt env "STATUS_LIST_AGGREGATION_URL"
    pool := (env "STATUS_LIST_POOL_ID").filter fun text => !Text.allBlank text
    timeout := ((env "STATUS_LIST_TIMEOUT_SECS").bind (Decimal.natural? (UInt64.size - 1))).getD 30
    annotates := (env "STATUS_LIST_ENABLED").all (· = "true") }

/-- The settings where everything is below one base, for a trial. -/
def ofTrialBase (text : String) : Except BadSetting Settings :=
  match Url.parse text with
  | .ok base => .ok ⟨some base, some base, none, 5, true⟩
  | .error fault => .error ⟨text, fault⟩

end Settings

end StatusList
