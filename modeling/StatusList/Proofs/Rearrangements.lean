import StatusList.Document
import StatusList.Proofs.Json.Grammar
import StatusList.Proofs.Json.Members

/-!
# Objects that are rearranged

Claims, headers and aggregations are read from a text whatever the text looks like: with white
space anywhere between the tokens, with the members in any order, with other members among them,
and with null for a member that may be absent (`rearranged_objects_read_alike`). For claims this
holds of the object in `status_list` too. An object that has one of its members twice is not
read.
-/

namespace StatusList

open Json (Literal Node Reader Record Field)

namespace Json

/-- Objects of a kind are read from their texts in every arrangement; `Rearranged` tells which
    members are others rearranged, and `Repeats` in which of them a name repeats. -/
structure ReadsRearranged {α : Type} (reader : Reader α)
    (Rearranged : List (Literal × Node) → List (Literal × Node) → Prop)
    (Repeats : List (Literal × Node) → Prop) : Prop where
  /-- What is read from a text is read from every text of the object rearranged. -/
  same {members members' : List (Literal × Node)} {text text' : List UInt8} {value : α} :
    (Node.object members .closed).IsText text → parse reader text = .ok value →
    Rearranged members members' → (Node.object members' .closed).IsText text' →
    parse reader text' = .ok value
  /-- No text is read in which a name repeats. -/
  once {members : List (Literal × Node)} {text : List UInt8} :
    (Node.object members .closed).IsText text → Repeats members →
    ∃ fault, parse reader text = .error fault

/-- Texts are read in every arrangement if their objects are. -/
theorem readsRearranged_of_read {α : Type} {reader : Reader α}
    {Rearranged : List (Literal × Node) → List (Literal × Node) → Prop}
    {Repeats : List (Literal × Node) → Prop}
    (hsame : ∀ {members members'}, Rearranged members members' → ∀ {value},
      reader (.object members .closed) = .ok value → reader (.object members' .closed) = .ok value)
    (honce : ∀ {members value}, reader (.object members .closed) = .ok value → ¬Repeats members) :
    ReadsRearranged reader Rearranged Repeats where
  same htext hread hmembers htext' := by
    rw [htext'.parse_eq]
    rw [htext.parse_eq] at hread
    exact hsame hmembers hread
  once {members _} htext hrepeats := by
    rw [htext.parse_eq]
    cases hread : reader (.object members .closed) with
    | error fault => exact ⟨fault, rfl⟩
    | ok value => exact absurd hrepeats (honce hread)

end Json

/-! ## List claims -/

/-- The members of a list claim rearranged. -/
def ListClaim.Rearranged : List (Literal × Node) → List (Literal × Node) → Prop :=
  Json.Rearranged ["bits", "lst", "aggregation_uri"] ["aggregation_uri"] fun _ _ _ => False

theorem ListClaim.arrangeable :
    record.Arrangeable ["aggregation_uri"] fun _ _ _ => False where
  commutes := by
    simp only [record, List.pairwise_cons, List.forall_mem_cons, List.not_mem_nil,
      IsEmpty.forall_iff, implies_true, List.Pairwise.nil, and_true]
    refine ⟨⟨?_, ?_⟩, ?_⟩
    all_goals exact Field.commutes_of_set rfl rfl fun _ _ _ => rfl
  optional := List.forall_mem_singleton.2 ⟨_, rfl, rfl⟩
  inside := nofun

/-! ## Claims -/

namespace Claims

/-- The object in `status_list` rearranged. -/
inductive Inside : String → Node → Node → Prop where
  | statusList {members members' : List (Literal × Node)}
    (h : ListClaim.Rearranged members members') :
    Inside "status_list" (.object members .closed) (.object members' .closed)

/-- The members of claims rearranged. -/
def Rearranged : List (Literal × Node) → List (Literal × Node) → Prop :=
  Json.Rearranged ["iss", "sub", "iat", "exp", "ttl", "status_list"] ["exp", "ttl"] Inside

/-- A name of claims repeats, or one of the list claim in them. -/
def Repeats (members : List (Literal × Node)) : Prop :=
  Json.Repeats ["iss", "sub", "iat", "exp", "ttl", "status_list"] members ∨
  ∃ members', .object members' .closed ∈ Json.valuesNamed "status_list" members ∧
    Json.Repeats ["bits", "lst", "aggregation_uri"] members'

theorem arrangeable : record.Arrangeable ["exp", "ttl"] Inside where
  commutes := by
    simp only [record, List.pairwise_cons, List.forall_mem_cons, List.not_mem_nil,
      IsEmpty.forall_iff, implies_true, List.Pairwise.nil, and_true]
    refine ⟨⟨?_, ?_, ?_, ?_, ?_⟩, ⟨?_, ?_, ?_, ?_⟩, ⟨?_, ?_, ?_⟩, ⟨?_, ?_⟩, ?_⟩
    all_goals exact Field.commutes_of_set rfl rfl fun _ _ _ => rfl
  optional := List.forall_mem_cons.2 ⟨⟨_, rfl, rfl⟩, List.forall_mem_singleton.2 ⟨_, rfl, rfl⟩⟩
  inside := by
    rintro _ _ _ ⟨h⟩
    refine ⟨_, rfl, fun draft result hput => ?_⟩
    obtain ⟨claim, hclaim, hresult⟩ := bind_eq_ok_iff.1 hput
    exact bind_eq_ok_iff.2 ⟨claim, ListClaim.arrangeable.read_rearranged h hclaim, hresult⟩

theorem not_repeats_of_read {members : List (Literal × Node)} {claims : Claims}
    (h : record.read (.object members .closed) = .ok claims) : ¬Repeats members := by
  rintro (hrepeats | ⟨members', hmem, hrepeats⟩)
  · exact Record.not_repeats_of_read h hrepeats
  · obtain ⟨draft, hdraft, -⟩ := Record.read_object_eq_ok_iff.1 h
    obtain ⟨draft, middle, hput⟩ := Record.exists_put rfl hmem hdraft
    obtain ⟨claim, hclaim, -⟩ := bind_eq_ok_iff.1 hput
    exact Record.not_repeats_of_read hclaim hrepeats

end Claims

/-! ## Headers and aggregations -/

/-- The members of a header rearranged. -/
def Header.Rearranged : List (Literal × Node) → List (Literal × Node) → Prop :=
  Json.Rearranged ["alg", "typ", "kid"] ["typ", "kid"] fun _ _ _ => False

theorem Header.arrangeable : record.Arrangeable ["typ", "kid"] fun _ _ _ => False where
  commutes := by
    simp only [record, List.pairwise_cons, List.forall_mem_cons, List.not_mem_nil,
      IsEmpty.forall_iff, implies_true, List.Pairwise.nil, and_true]
    refine ⟨⟨?_, ?_⟩, ?_⟩
    all_goals exact Field.commutes_of_set rfl rfl fun _ _ _ => rfl
  optional := List.forall_mem_cons.2 ⟨⟨_, rfl, rfl⟩, List.forall_mem_singleton.2 ⟨_, rfl, rfl⟩⟩
  inside := nofun

/-- The members of an aggregation rearranged. -/
def Aggregation.Rearranged : List (Literal × Node) → List (Literal × Node) → Prop :=
  Json.Rearranged ["status_lists"] [] fun _ _ _ => False

theorem Aggregation.arrangeable : record.Arrangeable [] fun _ _ _ => False where
  commutes := List.pairwise_singleton _ _
  optional := List.forall_mem_nil _
  inside := nofun

/-- Claims, headers and aggregations are read in every arrangement, and not at all where a
    name repeats. -/
theorem rearranged_objects_read_alike :
    Json.ReadsRearranged Claims.record.read Claims.Rearranged Claims.Repeats ∧
    Json.ReadsRearranged Header.record.read Header.Rearranged
      (Json.Repeats ["alg", "typ", "kid"]) ∧
    Json.ReadsRearranged Aggregation.record.read Aggregation.Rearranged
      (Json.Repeats ["status_lists"]) := by
  refine ⟨?_, ?_, ?_⟩
  · exact Json.readsRearranged_of_read Claims.arrangeable.read_rearranged
      Claims.not_repeats_of_read
  · exact Json.readsRearranged_of_read Header.arrangeable.read_rearranged
      Record.not_repeats_of_read
  · exact Json.readsRearranged_of_read Aggregation.arrangeable.read_rearranged
      Record.not_repeats_of_read

/-- A header with white space, a null and a member of an unknown name. -/
example :
    Json.parse Header.record.read
      "\x7b\"kid\" : null, \"x\": [1e9, \x7b\x7d],\n\"alg\":\"ES256\"\x7d".toUTF8.data.toList =
        .ok ⟨"ES256", none, none⟩ := by
  cbv

end StatusList
