import StatusList.Json.Value

/-!
# The description of the service

The service describes its lookups in JSON, in the form of OpenAPI: for each path
its parameters, the responses it can give and the shapes of their contents.
-/

namespace StatusList.Service

/-- A response as it is described. -/
structure Answer where
  /-- The status of the response. -/
  status : Nat
  /-- When it is given. -/
  meaning : String
  /-- The name of the shape of its content. -/
  shape : String

/-- A lookup as it is described. -/
structure Lookup where
  /-- Where it is asked for. -/
  path : String
  /-- What it does. -/
  summary : String
  /-- The name by which a program calls it. -/
  name : String
  /-- The responses it can give. -/
  answers : List Answer

namespace Description

/-- All lookups. -/
def lookups : List Lookup := [
  ⟨"/ui/status-list", "GET /ui/status-list: Fetch and decode one status list.", "get_status_list", [
    ⟨200, "Status list decoded", "StatusListResponse"⟩,
    ⟨400, "Missing id, or the list could not be fetched or decoded", "ErrorBody"⟩,
    ⟨404, "Status list is empty", "ErrorBody"⟩]⟩,
  ⟨"/ui/status-list/aggregation",
    "GET /ui/status-list/aggregation: Fetch the status lists of a pool.",
    "get_status_list_aggregation", [
    ⟨200, "Pool has status lists", "AggregationResponse"⟩,
    ⟨400, "No pool, or the aggregation could not be fetched or parsed", "ErrorBody"⟩,
    ⟨404, "Pool lists no status lists", "ErrorBody"⟩]⟩]

/-- The name under which lookups are gathered. -/
def tag : String := "status_list"

/-! ## Shapes -/

/-- A reference to a shape. -/
def shapeRef (name : String) : Json := .object [("$ref", .string ("#/components/schemas/" ++ name))]

/-- The shape of texts. -/
def text : Json := .object [("type", "string")]

/-- The shape of texts that may be null. -/
def optionalText : Json := .object [("type", .array ["string", "null"])]

/-- The shape of integers that are not negative. -/
def natural : Json :=
  .object [("type", "integer"), ("format", "int32"), ("minimum", .ofNat 0)]

/-- The shape of lists. -/
def listOf (item : Json) : Json := .object [("type", "array"), ("items", item)]

/-- The shape of objects. -/
def objectOf (description : String) (required : List String) (members : List (String × Json)) :
    Json :=
  .object [("type", "object"), ("description", .string description),
    ("required", .array (required.map .string)), ("properties", .object members)]

/-- All shapes, by name. -/
def shapes : List (String × Json) := [
  ("AggregationResponse", objectOf "Status list URIs of one issuance pool." ["status_lists"]
    [("status_lists", listOf text)]),
  ("ErrorBody", objectOf "Structured JSON error response body." ["error"]
    [("error", shapeRef "ErrorDetail")]),
  ("ErrorDetail", objectOf "Inner error detail." ["code", "message"] [
    ("code", .object [("type", "string"),
      ("description", "Machine-readable error code (e.g., \"NOT_FOUND\", \"BAD_REQUEST\").")]),
    ("message", .object [("type", "string"), ("description", "Human-readable error message.")])]),
  ("StatusListResponse", objectOf "A decoded status list, one value per entry."
    ["statusList", "bitsPerStatus", "totalStatuses"] [
    ("aggregationUri", optionalText), ("bitsPerStatus", natural), ("statusList", listOf natural),
    ("totalStatuses", natural)])]

/-! ## The whole -/

/-- The parameter of all lookups. -/
def parameter : Json := .object [
  ("name", "id"), ("in", "query"),
  ("description", "Status list URL or identifier; for the aggregation route, the pool id."),
  ("required", .boolean false), ("schema", optionalText)]

/-- The description of a response. -/
def ofAnswer (a : Answer) : String × Json :=
  (toString a.status, .object [
    ("description", .string a.meaning),
    ("content", .object [("application/json", .object [("schema", shapeRef a.shape)])])])

/-- The description of a lookup. -/
def ofLookup (l : Lookup) : String × Json :=
  (l.path, .object [("get", .object [
    ("tags", .array [.string tag]), ("summary", .string l.summary),
    ("operationId", .string l.name), ("parameters", .array [parameter]),
    ("responses", .object (l.answers.map ofAnswer))])])

/-- The description of the service. -/
def whole : Json := .object [
  ("openapi", "3.1.0"),
  ("info", .object [
    ("title", "Token Status List API"),
    ("description",
      "Lookup of remotely published token status lists and pool aggregation documents."),
    ("version", "0.1.0")]),
  ("paths", .object (lookups.map ofLookup)),
  ("components", .object [("schemas", .object shapes)]),
  ("tags", .array [.object [
    ("name", .string tag), ("description", "Status list and aggregation lookups")]])]

end Description

end StatusList.Service
