import StatusList.Lookup.Annotation
import StatusList.Proofs.Basic

/-!
# Attestations

An attestation has attributes of one kind or of several, and those of a kind may carry a
number and a reference (`Carries`). What is read of an attestation is always of one kind
(`Tells`): that of a person, if there is any of it, and else that of a driving licence.

A kind that carries a reference is not always the one that is read. Attributes of a person
that have no reference hide those of a licence, and so do attributes of either kind that
cannot be read those of the other: they *hide* what the others carry (`Hides`). Then the
reference is lost, and in no other case (`attested?_of_carries`), though nothing may be wrong
with what carries it (`licence_is_hidden`).
-/

namespace StatusList

variable {element attributes kind : Json} {members : List (String × Json)} {name number : String}
  {r : Reference}

/-! ## Attributes -/

/-- The name of the attributes of a person. -/
def personName : String := "eu.europa.ec.eudi.pid.1"

/-- The name of the attributes of a driving licence. -/
def licenceName : String := "org.iso.18013.5.1.mDL"

/-- The names of the kinds of attributes that are known. -/
def kindNames : List String := [personName, licenceName]

/-- Attributes of one kind have a number and a reference, each under its name. -/
structure Carries (kind : Json) (number : String) (r : Reference) : Prop where
  number : kind.member? "document_number" = some (.string number)
  reference : ∃ status list, kind.member? "status" = some status ∧
    status.member? "status_list" = some list ∧
    list.member? "uri" = some (.string r.uri) ∧
    list.member? "idx" = some (.ofNat r.index.toNat)

/-- A value with one member is an object, in which each name has its member or null. -/
theorem membersOf?_of_member? {value : Json} (h : kind.member? name = some value)
    (names : List String) :
    membersOf? names kind = some (names.map fun name => (kind.member? name).getD .null) := by
  cases kind <;> first | rfl | simp [Json.member?] at h

/-- What has a member is read as it would be if it had to be there. -/
theorem optionOf?_of_member? {α : Type} {reader : Json → Option α} {value : Json} {a : α}
    (h : kind.member? name = some value) (hread : reader kind = some a) :
    optionOf? reader kind = some (some a) := by
  cases kind with
  | null => simp [Json.member?] at h
  | _ => simp only [optionOf?, hread, Option.map_some]

theorem indexOf?_ofNat (index : UInt32) : indexOf? (.ofNat index.toNat) = some index := by
  have hindex : index.toNat < 4294967296 := index.toNat_lt_size
  simp [indexOf?, Json.ofNat, Json.ofInt, hindex]

/-- What is carried is read. -/
theorem Carries.ofJson?_eq (h : Carries kind number r) :
    Attributes.ofJson? kind = some ⟨number, some (some r)⟩ := by
  obtain ⟨hnumber, status, list, hstatus, hlist, huri, hindex⟩ := h
  have hreference : Reference.ofJson? list = some r := by
    simp only [Reference.ofJson?, membersOf?_of_member? huri, List.map_cons, List.map_nil, huri,
      hindex, Option.getD_some, stringOf?, indexOf?_ofNat]
    rfl
  have hreferred : statusOf? status = some (some r) := by
    simp only [statusOf?, membersOf?_of_member? hlist, List.map_cons, List.map_nil, hlist,
      Option.getD_some]
    exact optionOf?_of_member? huri hreference
  simp only [Attributes.ofJson?, membersOf?_of_member? hstatus, List.map_cons, List.map_nil,
    hnumber, hstatus, Option.getD_some, stringOf?, optionOf?_of_member? hlist hreferred]
  rfl

/-! ## Attestations -/

/-- What comes of reading the attributes of one kind: `none` where they cannot be read, and
    no attributes where there are none. -/
def kindAt? (attributes : Json) (name : String) : Option (Option Attributes) :=
  optionOf? Attributes.ofJson? ((attributes.member? name).getD .null)

/-- What the attributes of an attestation tell: a number and a reference of one kind. -/
inductive Tells (attributes : Json) (number : String) (r : Reference) : Prop where
  /-- Those of the person, where those of the licence do not stand in the way. -/
  | person {licence : Option Attributes}
    (hperson : kindAt? attributes personName = some (some ⟨number, some (some r)⟩))
    (hlicence : kindAt? attributes licenceName = some licence)
  /-- Those of the licence, where there are none of a person. -/
  | licence (hperson : kindAt? attributes personName = some none)
    (hlicence : kindAt? attributes licenceName = some (some ⟨number, some (some r)⟩))

/-- The attributes of an attestation hide what is carried in them. -/
inductive Hides (attributes : Json) : Prop where
  /-- Some cannot be read. -/
  | unreadable {name : String} (hname : name ∈ kindNames) (h : kindAt? attributes name = none)
  /-- Those of a person refer to nothing. -/
  | unreferring {a : Attributes} (h : kindAt? attributes personName = some (some a))
    (hstatus : a.status.join = none)

theorem attested?_eq_bind {docType : String}
    (hdocType : element.member? "docType" = some (.string docType))
    (hattributes : element.member? "attributes" = some (.object members)) :
    attested? element = do
      let person ← kindAt? (.object members) personName
      let licence ← kindAt? (.object members) licenceName
      let a ← person.or licence
      return (a.number, ← a.status.join) := by
  have hkinds : attributesOf? (.object members) = do
      let person ← kindAt? (.object members) personName
      let licence ← kindAt? (.object members) licenceName
      return person.or licence := rfl
  simp only [attested?, membersOf?_of_member? hdocType, List.map_cons, List.map_nil, hdocType,
    hattributes, Option.getD_some, optionOf?, stringOf?, hkinds]
  cases kindAt? (.object members) personName with
  | none => rfl
  | some person =>
    cases kindAt? (.object members) licenceName with
    | none => rfl
    | some licence => rfl

/-- What is read of an attestation is what its attributes tell. -/
theorem attested?_eq_some_iff {docType : String}
    (hdocType : element.member? "docType" = some (.string docType))
    (hattributes : element.member? "attributes" = some (.object members)) :
    attested? element = some (number, r) ↔ Tells (.object members) number r := by
  rw [attested?_eq_bind hdocType hattributes]
  constructor
  · simp only [Option.bind_eq_bind, Option.bind_eq_some_iff, Option.pure_def, Option.some.injEq,
      Prod.mk.injEq, Option.join_eq_some_iff]
    rintro ⟨person, hperson, licence, hlicence, ⟨_, status⟩, ha, _, hstatus, rfl, rfl⟩
    obtain rfl : status = _ := hstatus
    cases person with
    | none =>
      obtain rfl : licence = _ := ha
      exact .licence hperson hlicence
    | some a =>
      obtain rfl : a = _ := Option.some.inj ha
      exact .person hperson hlicence
  · rintro (⟨hperson, hlicence⟩ | ⟨hperson, hlicence⟩)
    · simp [hperson, hlicence]
    · simp [hperson, hlicence]

theorem kindAt?_of_carries (hkind : attributes.member? name = some kind)
    (h : Carries kind number r) :
    kindAt? attributes name = some (some ⟨number, some (some r)⟩) := by
  obtain ⟨status, -, hstatus, -⟩ := h.reference
  rw [kindAt?, hkind, Option.getD_some]
  exact optionOf?_of_member? hstatus h.ofJson?_eq

theorem mem_kindNames : name ∈ kindNames ↔ name = personName ∨ name = licenceName := by
  simp [kindNames]

/-- Nothing that is told is hidden. -/
theorem Tells.not_hides (h : Tells attributes number r) : ¬Hides attributes := by
  rintro (⟨hname, hnone⟩ | ⟨hother, hstatus⟩)
  -- What tells something has been able to read both kinds.
  · rcases mem_kindNames.1 hname with rfl | rfl <;> cases h <;> simp_all
  · cases h with
    | person hperson =>
      obtain rfl := Option.some.inj (Option.some.inj (hperson.symm.trans hother))
      exact nomatch hstatus
    | licence hperson => exact nomatch hperson.symm.trans hother

/-- What is carried is told, unless it is hidden. -/
theorem exists_tells_of_not_hides (hname : name ∈ kindNames)
    (hcarried : kindAt? attributes name = some (some ⟨number, some (some r)⟩))
    (h : ¬Hides attributes) : ∃ number r, Tells attributes number r := by
  cases hperson : kindAt? attributes personName with
  | none => exact absurd (.unreadable (mem_kindNames.2 (.inl rfl)) hperson) h
  | some person =>
    cases hlicence : kindAt? attributes licenceName with
    | none => exact absurd (.unreadable (mem_kindNames.2 (.inr rfl)) hlicence) h
    | some licence =>
      cases person with
      | some a =>
        obtain ⟨number, status⟩ := a
        cases hstatus : status.join with
        | none => exact absurd (.unreferring hperson hstatus) h
        | some r =>
          obtain rfl : status = some (some r) := Option.join_eq_some_iff.1 hstatus
          exact ⟨number, r, .person hperson hlicence⟩
      | none =>
        -- There is nothing of a person, so that it is the licence that carries.
        rcases mem_kindNames.1 hname with rfl | rfl
        · simp [hperson] at hcarried
        · exact ⟨number, r, .licence hperson hcarried⟩

/-- Of an attestation that carries a number and a reference in its attributes of some kind,
    the number and the reference of one kind are read, or nothing is: the latter just if its
    attributes hide what is carried in them. -/
theorem attested?_of_carries {docType : String}
    (hdocType : element.member? "docType" = some (.string docType))
    (hattributes : element.member? "attributes" = some (.object members))
    (hname : name ∈ kindNames) (hkind : (Json.object members).member? name = some kind)
    (h : Carries kind number r) :
    (attested? element = none ↔ Hides (.object members)) ∧
      ∀ number r, attested? element = some (number, r) ↔ Tells (.object members) number r := by
  have htells : ∀ number r, attested? element = some (number, r) ↔
      Tells (.object members) number r := fun _ _ =>
    attested?_eq_some_iff hdocType hattributes
  refine ⟨⟨fun hnone => ?_, fun hhides => ?_⟩, htells⟩
  · by_contra hshown
    obtain ⟨number, r, h⟩ :=
      exists_tells_of_not_hides hname (kindAt?_of_carries hkind h) hshown
    exact nomatch hnone.symm.trans ((htells number r).2 h)
  · by_contra hsome
    obtain ⟨⟨number, r⟩, hsome⟩ := Option.ne_none_iff_exists'.1 hsome
    exact ((htells number r).1 hsome).not_hides hhides

/-! ## Two kinds at once -/

/-- The attributes of a licence with a number and a reference. -/
def trialLicence : Json :=
  .object [("document_number", "L"),
    ("status", .object [("status_list", .object [("uri", "7"), ("idx", .ofNat 3)])])]

/-- The attributes of a person and those of a licence. -/
def besideLicence (person : Json) : List (String × Json) :=
  [(personName, person), (licenceName, trialLicence)]

/-- An attestation of a person and of a licence. -/
def withLicence (person : Json) : Json :=
  .object [("docType", "x"), ("attributes", .object (besideLicence person))]

theorem carries_trialLicence : Carries trialLicence "L" ⟨"7", 3⟩ :=
  ⟨rfl, _, _, rfl, rfl, rfl, rfl⟩

/-- The licence is read where there is nothing of a person. -/
theorem licence_is_read :
    (withLicence .null).member? "docType" = some (.string "x") ∧
    (withLicence .null).member? "attributes" = some (.object (besideLicence .null)) ∧
    licenceName ∈ kindNames ∧
    (Json.object (besideLicence .null)).member? licenceName = some trialLicence ∧
    Carries trialLicence "L" ⟨"7", 3⟩ ∧
    attested? (withLicence .null) = some ("L", ⟨"7", 3⟩) := by
  have hname : licenceName ∈ kindNames := by decide
  refine ⟨rfl, rfl, hname, rfl, carries_trialLicence, ?_⟩
  exact ((attested?_of_carries rfl rfl hname rfl carries_trialLicence).2 _ _).2
    (.licence rfl (kindAt?_of_carries rfl carries_trialLicence))

/-- Attributes of a person without a status. -/
def unlistedPerson : Json := .object [("document_number", "P")]

/-- Attributes of a person without a number. -/
def unnumberedPerson : Json := .object []

/-- The licence is lost beside attributes of a person that have no status, or no number. -/
theorem licence_is_hidden :
    Carries trialLicence "L" ⟨"7", 3⟩ ∧
    ((withLicence unlistedPerson).member? "docType" = some (.string "x") ∧
      (withLicence unlistedPerson).member? "attributes" =
        some (.object (besideLicence unlistedPerson)) ∧
      (Json.object (besideLicence unlistedPerson)).member? licenceName = some trialLicence ∧
      attested? (withLicence unlistedPerson) = none) ∧
    (withLicence unnumberedPerson).member? "docType" = some (.string "x") ∧
      (withLicence unnumberedPerson).member? "attributes" =
        some (.object (besideLicence unnumberedPerson)) ∧
      (Json.object (besideLicence unnumberedPerson)).member? licenceName = some trialLicence ∧
      attested? (withLicence unnumberedPerson) = none :=
  ⟨carries_trialLicence, ⟨rfl, rfl, rfl, by decide +kernel⟩, rfl, rfl, rfl, by decide +kernel⟩

end StatusList
