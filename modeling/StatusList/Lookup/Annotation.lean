import StatusList.Lookup.Client

/-!
# Annotations

A *presentation* is a list of attestations, each of them JSON of any form. An
attestation of a known kind has a number, and may refer to an entry of a status
list: that entry, as it is now, is the *annotation* of the attestation.

* `attested?`: the number and the reference of an attestation;
* `Client.annotate`: the annotations of a presentation, in order.
-/

namespace StatusList

/-! ## Attestations -/

/-- The members of an object by name, null where there is none; an array of
    exactly as many items stands for the same. -/
def membersOf? (names : List String) : Json → Option (List Json)
  | .object members => some (names.map fun name => ((Json.object members).member? name).getD .null)
  | .array items => if items.length = names.length then some items else none
  | _ => none

/-- A string. -/
def stringOf? : Json → Option String
  | .string text => some text
  | _ => none

/-- Null, or what `reader` reads. -/
def optionOf? {α : Type} (reader : Json → Option α) : Json → Option (Option α)
  | .null => some none
  | value => (reader value).map some

/-- An index of 32 bits. -/
def indexOf? : Json → Option UInt32
  | .number (.integer n) => if 0 ≤ n ∧ n < UInt32.size then some n.toNat.toUInt32 else none
  | _ => none

/-- A reference to an entry. -/
def Reference.ofJson? (value : Json) : Option Reference :=
  match membersOf? ["uri", "idx"] value with
  | some [uri, index] => do return ⟨← stringOf? uri, ← indexOf? index⟩
  | _ => none

/-- The reference, if there is one, in the status of an attestation. -/
def statusOf? (value : Json) : Option (Option Reference) :=
  match membersOf? ["status_list"] value with
  | some [list] => optionOf? Reference.ofJson? list
  | _ => none

/-- The attributes of one kind of attestation. -/
structure Attributes where
  /-- The number of the attestation. -/
  number : String
  /-- What its status is, if that is said. -/
  status : Option (Option Reference)
  deriving DecidableEq, Inhabited

/-- Attributes of one kind. -/
def Attributes.ofJson? (value : Json) : Option Attributes :=
  match membersOf? ["document_number", "status"] value with
  | some [number, status] => do return ⟨← stringOf? number, ← optionOf? statusOf? status⟩
  | _ => none

/-- The attributes of an attestation: those of a person, or else those of a
    driving licence. -/
def attributesOf? (value : Json) : Option (Option Attributes) :=
  match membersOf? ["eu.europa.ec.eudi.pid.1", "org.iso.18013.5.1.mDL"] value with
  | some [person, licence] => do
    let person ← optionOf? Attributes.ofJson? person
    let licence ← optionOf? Attributes.ofJson? licence
    return person.or licence
  | _ => none

/-- The number of an attestation and the entry that it refers to, if it has
    both and is of a known kind. -/
def attested? (value : Json) : Option (String × Reference) :=
  match membersOf? ["docType", "attributes"] value with
  | some [kind, attributes] => do
    let kind ← optionOf? stringOf? kind
    let attributes ← optionOf? attributesOf? attributes
    let _ ← kind
    let attributes ← attributes.join
    return (attributes.number, ← attributes.status.join)
  | _ => none

/-! ## Annotating -/

/-- What an attestation refers to, as it is now. -/
structure Annotation where
  /-- The number of the attestation. -/
  number : String
  /-- The entry, if the list has it. -/
  status : Option UInt8
  /-- The list. -/
  list : Document
  deriving DecidableEq

/-- The JSON of an annotation. -/
def Annotation.toJson (a : Annotation) : Json :=
  .object [
    ("document", .string a.number),
    ("status", .ofOption (fun value => .ofNat value.toNat) a.status),
    ("status_list", a.list.toJson)]

namespace Client

/-- The annotation of an attestation, if its list is found. -/
def annotateOne (c : Client) (number : String) (r : Reference) : Fetching (Option Annotation) := do
  return (← c.lists.fetch r.uri).value?.map fun list => ⟨number, list.status? r.index, list⟩

/-- The lookups that a presentation takes: one for each attestation in it that refers
    to an entry. They have nothing to do with each other. -/
def lookups (c : Client) (presentation : List Json) : List (Fetching (Option Annotation)) :=
  (presentation.filterMap attested?).map fun (number, r) => c.annotateOne number r

/-- The annotations of a presentation, if the client annotates at all. -/
def annotate (c : Client) (presentation : List Json) : Fetching (Option (List Annotation)) :=
  if c.annotates then return some ((← Fetching.all (c.lookups presentation)).filterMap id)
  else return none

end Client

end StatusList
