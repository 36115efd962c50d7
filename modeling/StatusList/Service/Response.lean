import StatusList.Document
import StatusList.Outcome

/-!
# Responses

A *response* has a status and content. Where a lookup has been asked for, the
content is JSON: a decoded list with one number for each entry, the places of the
lists of a pool, or an error with a code and a message.

* `Response.ofOutcome`: the response to a lookup.
-/

namespace StatusList.Service

open Json (Reader Record)

/-- A decoded list, with one number for each entry. -/
structure ListResponse where
  /-- The entries. -/
  statusList : List UInt8
  /-- The width of every entry. -/
  bitsPerStatus : UInt8
  /-- The number of entries. -/
  totalStatuses : UInt32
  /-- Where the list is gathered with others. -/
  aggregationUri : Option String
  deriving DecidableEq, Inhabited

namespace ListResponse

/-- The response that shows a document. -/
def ofDocument (d : Document) : ListResponse where
  statusList := d.list.toList
  bitsPerStatus := d.list.width.bits.toUInt8
  totalStatuses := d.total.toUInt32
  aggregationUri := d.aggregationUri

/-- A response of which members may be missing yet. -/
structure Draft where
  statusList : Option (List UInt8)
  bitsPerStatus : Option UInt8
  totalStatuses : Option UInt32
  aggregationUri : Option String

/-- How a response is read. -/
def record : Record Draft ListResponse where
  name := "StatusListResponse"
  fields := [
    ⟨"statusList", true, fun d node =>
      return { d with statusList := some (← Reader.list Reader.byte node) }⟩,
    ⟨"bitsPerStatus", true, fun d node =>
      return { d with bitsPerStatus := some (← Reader.byte node) }⟩,
    ⟨"totalStatuses", true, fun d node =>
      return { d with totalStatuses := some (← Reader.word node) }⟩,
    ⟨"aggregationUri", false, fun d node =>
      return { d with aggregationUri := ← Reader.option Reader.string node }⟩]
  blank := ⟨none, none, none, none⟩
  finish := fun d => return {
    statusList := ← Json.need "statusList" d.statusList
    bitsPerStatus := ← Json.need "bitsPerStatus" d.bitsPerStatus
    totalStatuses := ← Json.need "totalStatuses" d.totalStatuses
    aggregationUri := d.aggregationUri }

/-- The JSON of a response. -/
def toJson (r : ListResponse) : Json :=
  .record [
    ("statusList", some (.array (r.statusList.map fun value => .ofNat value.toNat))),
    ("bitsPerStatus", some (.ofNat r.bitsPerStatus.toNat)),
    ("totalStatuses", some (.ofNat r.totalStatuses.toNat)),
    ("aggregationUri", r.aggregationUri.map .string)]

end ListResponse

/-! ## Pools -/

/-- How the places of the lists of a pool are read from a response. -/
def aggregationRecord : Record (Option (List String)) Aggregation :=
  Aggregation.recordNamed "AggregationResponse"

/-! ## Contents -/

/-- What a response holds. -/
inductive Content where
  | nothing
  | text (value : String)
  | json (value : Json)
  deriving Inhabited

namespace Content

/-- What a content says it is. -/
def type? : Content → Option String
  | nothing => none
  | text _ => some "text/plain; charset=utf-8"
  | json _ => some "application/json"

/-- The content as it is sent. -/
def body : Content → String
  | nothing => ""
  | text value => value
  | json value => value.compact

end Content

/-- What the service answers. -/
structure Response where
  /-- How it went. -/
  status : Nat
  /-- What there is to say. -/
  content : Content
  /-- The methods that would have been allowed, if the one that was used is not. -/
  allow : Option String
  deriving Inhabited

namespace Response

/-- The response that nothing is wrong with. -/
def ok (content : Content) : Response := ⟨200, content, none⟩

/-- The response that tells what is wrong. -/
def failure (status : Nat) (code message : String) : Response :=
  let detail : Json := .object [("code", .string code), ("message", .string message)]
  ⟨status, .json (.object [("error", detail)]), none⟩

/-- The response to a path that leads nowhere. -/
def nowhere : Response := ⟨404, .nothing, none⟩

/-- The response to a method that does not fit. -/
def notAllowed : Response := ⟨405, .nothing, some "GET,HEAD"⟩

/-- The response to a query that names one thing twice. -/
def repeated (name : String) : Response :=
  ⟨400, .text s!"Failed to deserialize query string: duplicate field \x60{name}\x60", none⟩

/-- The response to a lookup of what `resource` names. -/
def ofOutcome {α : Type} (resource : String) (toJson : α → Json) : Outcome α → Response
  | .found value => ok (.json (toJson value))
  | .notFound => failure 404 "NOT_FOUND" s!"not found: {resource} not found"
  | .invalid => failure 400 "BAD_REQUEST" s!"bad request: {resource} could not be retrieved"

end Response

end StatusList.Service
