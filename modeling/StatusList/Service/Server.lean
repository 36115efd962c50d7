import StatusList.Lookup.Client
import StatusList.Service.Description
import StatusList.Service.Request
import StatusList.Service.Response

/-!
# The service

The service answers requests: it looks up status lists and pools for those who
ask, describes itself, and tells that it is alive. It counts the lookups by how
they were answered, whether they got as far as to be looked up or not.

* `answer`: the response to a request;
* `serve`: the same, with the counts after it.
-/

namespace StatusList.Service

/-- What the service runs with. -/
structure Settings where
  /-- The port to be found at. -/
  port : Nat
  /-- Where lookups go. -/
  lookups : StatusList.Settings
  deriving DecidableEq

namespace Settings

/-- The settings of an environment. -/
def ofEnvironment (env : Environment) : Except BadSetting Settings := do
  return {
    port := ((env "PORT").bind (Decimal.natural? (UInt16.size - 1))).getD 8080
    lookups := ← StatusList.Settings.ofEnvironment env }

end Settings

/-! ## Routes -/

/-- What the service can be asked for. -/
inductive Route where
  | list
  | aggregation
  | description
  | liveness
  | readiness
  deriving DecidableEq, Repr, Inhabited

namespace Route

/-- The path that everything about status lists is below. -/
def listPath : String := "/ui/status-list"

/-- What a path leads to. -/
def ofPath? (path : String) : Option Route :=
  if path = listPath then some list
  else if path = listPath ++ "/aggregation" then some aggregation
  else if path = "/openapi.json" then some description
  else if path = "/health/liveness" then some liveness
  else if path = "/health/readiness" then some readiness
  else none

end Route

/-! ## Responses to requests -/

/-- The response that depends on the one value that the query gives to `id`. -/
def withIdentifier (r : Request) (respond : Option String → Fetching Response) :
    Fetching Response :=
  match r.valuesOf "id" with
  | [] => respond none
  | [id] => respond (some id)
  | _ => return .repeated "id"

/-- The response to a request to read what a route leads to. -/
def read (c : Client) (r : Request) : Route → Fetching Response
  | .list => withIdentifier r fun id => do
    return .ofOutcome "status list" (fun d => (ListResponse.ofDocument d).toJson) (← c.list id)
  | .aggregation => withIdentifier r fun id => do
    return .ofOutcome "status list aggregation" Aggregation.toJson (← c.aggregation id)
  | .description => return .ok (.json Description.whole)
  | .liveness => return .ok (.text "ok")
  | .readiness => return .ok (.text "ready")

/-- The response to a request. -/
def answer (c : Client) (r : Request) : Fetching Response :=
  match Route.ofPath? r.path with
  | none => return .nowhere
  | some route =>
    if r.method = "GET" ∨ r.method = "HEAD" then read c r route else return .notAllowed

/-- What is sent of a response: nothing but its head, if no more was asked for. -/
def bodyFor (r : Request) (response : Response) : String :=
  if r.method = "HEAD" then "" else response.content.body

/-! ## Counts -/

/-- How many lookups there have been. Each number is on a counter of 64 bits. -/
structure Counts where
  /-- All of them. -/
  lookups : Nat
  /-- Those that found something. -/
  found : Nat
  /-- Those that found nothing. -/
  notFound : Nat
  /-- Those that failed. -/
  invalid : Nat
  deriving DecidableEq, Repr, Inhabited

namespace Counts

/-- No lookups yet. -/
def zero : Counts := ⟨0, 0, 0, 0⟩

/-- One more on a counter, which begins again at zero when it is full. -/
def tick (n : Nat) : Nat := (n + 1) % UInt64.size

/-- The counts after a lookup that was answered with a status. -/
def record (c : Counts) (status : Nat) : Counts where
  lookups := tick c.lookups
  found := if status = 200 then tick c.found else c.found
  notFound := if status = 404 then tick c.notFound else c.notFound
  invalid := if status = 400 then tick c.invalid else c.invalid

end Counts

/-- Whether a request counts as a lookup. -/
def isCounted (r : Request) : Bool := Route.listPath.toList.isPrefixOf r.path.toList

/-- The response to a request, and the counts after it. -/
def serve (c : Client) (counts : Counts) (r : Request) : Fetching (Response × Counts) := do
  let response ← answer c r
  return (response, if isCounted r then counts.record response.status else counts)

end StatusList.Service
