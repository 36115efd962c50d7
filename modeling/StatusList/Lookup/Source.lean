import StatusList.Lookup.Fetching
import StatusList.Outcome
import StatusList.Token
import StatusList.Url.Reader

/-!
# Sources

A *source* knows where something is published. Status lists are referred to by
their URL or by an identifier below a base; the lists of a pool are told below
another base, by the identifier of the pool.

A lookup asks for one URL at most. What goes wrong, and where, is kept by
`tryFetch`, while `fetch` tells only how the lookup ends: everything that goes
wrong is invalid, and something that is there but empty is not found.

* `ListSource.resolve`: the URL of a reference.
-/

namespace StatusList

/-- Why a reference stands for no URL. -/
inductive Unresolved where
  /-- The base has no root to go down from. -/
  | rootlessBase (base : Url)
  /-- The reference is no URL to be asked for, and there is no base. -/
  | noBase (reference : String)
  deriving DecidableEq, Repr, Inhabited

/-- The words for a reference that stands for no URL. -/
def Unresolved.message : Unresolved → String
  | rootlessBase base => s!"invalid URL {base.text}: URL cannot be a base"
  | noBase reference =>
    s!"invalid URL {reference}: not an http(s) URL and no status list base URL is configured"

/-- Why a lookup fails. -/
inductive LookupError where
  /-- There is no URL to ask for. -/
  | unresolved (cause : Unresolved)
  /-- Nothing was found at the URL. -/
  | notFetched (cause : FetchError)
  /-- What was found is no status list. -/
  | badList (cause : Error)
  /-- What was found does not tell the lists of a pool. -/
  | badAggregation (fault : Json.Fault)
  /-- There is no base for pools. -/
  | noPools
  deriving Repr, Inhabited

/-- The words for a failed lookup. -/
def LookupError.message : LookupError → String
  | unresolved cause => cause.message
  | notFetched cause => cause.message
  | badList cause => s!"status list rejected: {cause.message}"
  | badAggregation fault => s!"aggregation document rejected: {fault.message}"
  | noPools => "not configured: aggregation base URL"

/-- The URL of an identifier below a base. -/
def urlBelow (base : Url) (identifier : String) : Except Unresolved Url :=
  match base.appendSegment? identifier with
  | some url => .ok url
  | none => .error (.rootlessBase base)

/-- Ask for a URL, if there is one, and read what is found. -/
def lookup {α : Type} (url : Except LookupError Url)
    (reader : ByteArray → Except LookupError α) : Fetching (Except LookupError α) :=
  match url with
  | .error cause => return .error cause
  | .ok url => do
    match ← Fetching.fetch url with
    | .error cause => return .error (.notFetched cause)
    | .ok body => return reader body

/-! ## Status lists -/

/-- Where status lists are published. -/
structure ListSource where
  /-- What identifiers are below. -/
  base : Option Url
  /-- Who decides on signatures. -/
  verifier : Option Verifier

namespace ListSource

/-- The URL that a text is, if it is one to be asked for. -/
def webUrl? (text : String) : Option Url := (Url.parse? text).filter Url.isHttp

/-- The URL of a reference. Blanks around a reference do not count. -/
def resolve (s : ListSource) (reference : String) : Except Unresolved Url :=
  let reference := Text.trim reference
  match webUrl? reference, s.base with
  | some url, _ => .ok url
  | none, some base => urlBelow base reference
  | none, none => .error (.noBase reference)

/-- The document of a reference, or why there is none. -/
def tryFetch (s : ListSource) (reference : String) : Fetching (Except LookupError Document) :=
  lookup ((s.resolve reference).mapError .unresolved) fun body =>
    (Document.read s.verifier body).mapError .badList

/-- The document of a reference. -/
def fetch (s : ListSource) (reference : String) : Fetching (Outcome Document) := do
  return .ofExcept Document.isEmpty (← s.tryFetch reference)

end ListSource

/-! ## Pools -/

/-- Where the lists of pools are told. -/
structure PoolSource where
  /-- What pools are below. -/
  base : Option Url

namespace PoolSource

/-- The URL of a pool. -/
def resolve (s : PoolSource) (pool : String) : Except LookupError Url :=
  match s.base with
  | none => .error .noPools
  | some base => (urlBelow base pool).mapError .unresolved

/-- The lists of a pool, or why there are none. -/
def tryFetch (s : PoolSource) (pool : String) : Fetching (Except LookupError Aggregation) :=
  lookup (s.resolve pool) fun body =>
    (Json.parse Aggregation.record.read body.data.toList).mapError .badAggregation

/-- The lists of a pool. -/
def fetch (s : PoolSource) (pool : String) : Fetching (Outcome Aggregation) := do
  return .ofExcept Aggregation.isEmpty (← s.tryFetch pool)

end PoolSource

end StatusList
