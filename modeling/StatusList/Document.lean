import StatusList.Claims
import StatusList.Unpacked

/-!
# Documents

A *document* is a decoded status list as it is shown, with the place where it is
gathered with others. An *aggregation* is the list of the places where the
status lists of one pool are published, and a *reference* points at one entry of
one list.
-/

namespace StatusList

open Json (Reader Record)

/-- The JSON of a packed list: its entries. -/
def Packed.toJson (p : Packed) : Json := .array (p.toList.map fun value => .ofNat value.toNat)

/-- One more than the most entries of a document. -/
def entryLimit : Nat := UInt32.size

/-- A decoded status list. -/
structure Document where
  /-- The list. -/
  list : Packed
  /-- Where the list is gathered with others. -/
  aggregationUri : Option String
  /-- 32 bits count the entries. -/
  size_lt : list.size < entryLimit
  deriving DecidableEq

namespace Document

/-- The document of the bytes of a list, unless it has too many entries. -/
def ofPacked (width : Width) (raw : ByteArray) (aggregationUri : Option String) :
    Except Error Document :=
  let list : Packed := ⟨width, raw⟩
  if h : list.size < entryLimit then .ok ⟨list, aggregationUri, h⟩
  else .error (.malformedToken (.tooManyEntries list.size))

/-- The number of entries. -/
def total (d : Document) : Nat := d.list.size

/-- Whether there are no entries. -/
def isEmpty (d : Document) : Bool := d.total = 0

/-- The entry at `index`, if there is one. -/
def status? (d : Document) (index : UInt32) : Option UInt8 := d.list.get? index.toNat

/-- The JSON of a document. -/
def toJson (d : Document) : Json :=
  .record [
    ("statusList", some d.list.toJson),
    ("bitsPerStatus", some d.list.width.toJson),
    ("totalStatuses", some (.ofNat d.total)),
    ("aggregationUri", d.aggregationUri.map .string)]

end Document

/-! ## Aggregations -/

/-- Where the status lists of one pool are published. -/
structure Aggregation where
  /-- The places, in the order in which they are published. -/
  uris : List String
  deriving DecidableEq, Inhabited

namespace Aggregation

/-- How an aggregation is read, under the name of a kind of value. -/
def recordNamed (name : String) : Record (Option (List String)) Aggregation where
  name := name
  fields := [⟨"status_lists", true, fun _ node => return some (← Reader.list Reader.string node)⟩]
  blank := none
  finish := fun d => return ⟨← Json.need "status_lists" d⟩

/-- How an aggregation is read. -/
def record : Record (Option (List String)) Aggregation := recordNamed "AggregationDocument"

/-- The JSON of an aggregation. -/
def toJson (a : Aggregation) : Json :=
  .record [("status_lists", some (.array (a.uris.map .string)))]

/-- Whether the pool has no status lists. -/
def isEmpty (a : Aggregation) : Bool := a.uris.isEmpty

end Aggregation

/-! ## References -/

/-- One entry of one published list. -/
structure Reference where
  /-- Where the list is published. -/
  uri : String
  /-- The index of the entry. -/
  index : UInt32
  deriving DecidableEq, Inhabited

namespace Reference

/-- A reference of which members may be missing yet. -/
structure Draft where
  uri : Option String
  index : Option UInt32

/-- How a reference is read. -/
def record : Record Draft Reference where
  name := "StatusListReference"
  fields := [
    ⟨"uri", true, fun d node => return { d with uri := some (← Reader.string node) }⟩,
    ⟨"idx", true, fun d node => return { d with index := some (← Reader.word node) }⟩]
  blank := ⟨none, none⟩
  finish := fun d => return {
    uri := ← Json.need "uri" d.uri
    index := ← Json.need "idx" d.index }

/-- The JSON of a reference. -/
def toJson (r : Reference) : Json :=
  .record [("uri", some (.string r.uri)), ("idx", some (.ofNat r.index.toNat))]

end Reference

end StatusList
