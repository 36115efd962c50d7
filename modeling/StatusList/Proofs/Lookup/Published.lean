import StatusList.Lookup.Client
import StatusList.Proofs.Flate.Limits
import StatusList.Proofs.Json.Readers
import StatusList.Proofs.Lookup.Ends

/-!
# What is published

Whatever a lookup finds has been published at the one URL that it asks for, and there is
something in it (`LooksUp.published`). This says what can be found, where nothing is assumed of
what is published: it may be any byte string.

* `Document.size_le_of_read`: no document has more bytes than may be inflated.
* `Aggregation.published_iff_of_parse`: the lists of a pool are those that are told, in the
  order in which they are told. They are told as the one member `status_lists` of an object, or
  as the only item of an array (`Aggregation.Published`).
-/

namespace StatusList

/-! ## Documents -/

/-- A document has no more bytes than may be inflated, whatever it is read from. -/
theorem Document.size_le_of_read {verifier : Option Verifier} {body : ByteArray} {d : Document}
    (h : Document.read verifier body = .ok d) : d.list.bytes.size ≤ largestPacked := by
  simp only [Document.read, Token.toDocument, decodePacked, bind_eq_ok_iff] at h
  obtain ⟨token, -, raw, ⟨stream, -, hraw⟩, hd⟩ := h
  have hlist : d.list = ⟨token.claims.statusList.width, raw⟩ := by
    simp only [ofPacked] at hd
    split at hd
    · cases hd
      rfl
    · cases hd
  rw [hlist]
  exact Flate.size_le_of_unpack (mapError_eq_ok_iff.1 hraw)

/-! ## Aggregations -/

namespace Aggregation

open Json (Node Token Reader Record valuesNamed)

/-- The places of the lists of a pool are told in this order. -/
inductive Tells (uris : List String) : Node → Prop where
  /-- They are the one member of that name. -/
  | object {members : List (Json.Literal × Node)}
    (h : valuesNamed "status_lists" members = [.ofStrings uris]) :
    Tells uris (.object members .closed)
  /-- They are the only item. -/
  | array : Tells uris (.array [.ofStrings uris] .closed)

/-- A body is JSON that tells the places of the lists of a pool in this order. -/
def Published (body : ByteArray) (uris : List String) : Prop :=
  ∃ node, Node.ofTokens (Token.ofText body.data.toList) = (node, false) ∧ Tells uris node

/-- The places that are read are told in the order in which they are read. -/
theorem tells_of_read {node : Node} {a : Aggregation} (h : record.read node = .ok a) :
    Tells a.uris node := by
  -- Of the draft the one member is needed, and it is put as it is read.
  have hfinish : ∀ {draft : Option (List String)}, record.finish draft = .ok a →
      draft = some a.uris := by
    rintro (_ | uris) hfinish
    · cases hfinish
    · cases hfinish
      rfl
  cases node with
  | object members close =>
    simp only [Record.read, bind_eq_ok_iff, Reader.raise_eq_ok_iff,
      Reader.objectFault?_eq_none_iff] at h
    obtain ⟨draft, hput, -, rfl, hdraft⟩ := h
    obtain rfl := hfinish hdraft
    obtain ⟨-, hblank⟩ | ⟨value, honce, hvalue⟩ := Record.putMembers_of_single rfl hput
    · cases hblank
    · obtain ⟨uris, huris, hsome⟩ := bind_eq_ok_iff.1 hvalue
      cases hsome
      obtain rfl := Reader.list_string_eq_ok_iff.1 huris
      exact .object honce
  | array items close =>
    simp only [Record.read, bind_eq_ok_iff, Reader.raise_eq_ok_iff,
      Reader.endFault?_eq_none_iff] at h
    obtain ⟨⟨draft, rest⟩, hput, value, hvalue, -, ⟨rfl, rfl⟩, hsame⟩ := h
    cases hsame
    obtain rfl := hfinish hvalue
    cases items with
    | nil => cases hput
    | cons item items =>
      obtain ⟨draft, hitem, hrest⟩ := bind_eq_ok_iff.1 hput
      obtain ⟨uris, huris, hsome⟩ := bind_eq_ok_iff.1 hitem
      cases hsome
      cases hrest
      obtain rfl := Reader.list_string_eq_ok_iff.1 huris
      exact .array
  | null | boolean | number | string | broken => cases h

theorem Tells.unique {uris uris' : List String} {node : Node} (h : Tells uris node)
    (h' : Tells uris' node) : uris = uris' := by
  cases h with
  | object honce =>
    cases h' with
    | object honce' =>
      exact Node.ofStrings_injective (List.singleton_inj.1 (honce.symm.trans honce'))
  | array =>
    generalize hnode : Node.ofStrings uris = item at h'
    cases h'
    exact Node.ofStrings_injective hnode

/-- What is read of a body is published in it, and nothing else is. -/
theorem published_iff_of_parse {body : ByteArray} {a : Aggregation}
    (h : Json.parse record.read body.data.toList = .ok a) (uris : List String) :
    Published body uris ↔ uris = a.uris := by
  obtain ⟨node, hnode, hread⟩ := Json.parse_eq_ok_iff.1 h
  constructor
  · rintro ⟨node', hnode', htells⟩
    obtain ⟨rfl, -⟩ := Prod.mk.inj (hnode.symm.trans hnode')
    exact htells.unique (tells_of_read hread)
  · rintro rfl
    exact ⟨node, hnode, tells_of_read hread⟩

end Aggregation

/-! ## Lookups -/

/-- What a lookup finds has been read from what is published at the one URL that it asks for,
    and there is something in it. -/
theorem LooksUp.published {α ε₁ ε₂ : Type} {t : Transport} {url : Except ε₁ Url}
    {unresolved : ε₁ → LookupError} {reader : ByteArray → Except ε₂ α}
    {unread : ε₂ → LookupError} {size : α → Nat} {attempt : Fetching (Except LookupError α)}
    {whole : Fetching (Outcome α)}
    (h : LooksUp t url unresolved reader unread size attempt whole) {a : α}
    (hfound : whole.run t = .found a) :
    ∃ target body, whole.asked t = [target] ∧ t target = .ok body ∧ reader body = .ok a ∧
      0 < size a := by
  obtain ⟨hrun, hsize⟩ := (h.found a).1 hfound
  cases (h.attempted _).1 hrun with
  | @read target body _ hurl hbody hread =>
    have hasked := h.asked.2
    rw [hurl] at hasked
    exact ⟨target, body, hasked, hbody, hread, hsize⟩

namespace Client

variable {c : Client} {id : Option String} {t : Transport}

/-- A list that is found has been published. -/
theorem published_of_list {d : Document} (h : (c.list id).run t = .found d) :
    ∃ url body, (c.list id).asked t = [url] ∧ t url = .ok body ∧
      Document.read c.lists.verifier body = .ok d ∧ 0 < d.total := by
  rw [list] at h ⊢
  cases hid : identifier? id with
  | none =>
    rw [hid] at h
    cases h
  | some id =>
    rw [hid] at h
    exact (c.lists.looksUp id t).published h

/-- The lists of a pool that are found have been told, in this order. -/
theorem published_of_aggregation {a : Aggregation} (h : (c.aggregation id).run t = .found a) :
    ∃ url body, (c.aggregation id).asked t = [url] ∧ t url = .ok body ∧
      (∀ uris, Aggregation.Published body uris ↔ uris = a.uris) ∧ a.uris ≠ [] := by
  rw [aggregation] at h ⊢
  cases hid : (identifier? id).or (identifier? c.pool) with
  | none =>
    rw [hid] at h
    cases h
  | some pool =>
    rw [hid] at h
    generalize c.pools = pools at h ⊢
    obtain ⟨_ | base⟩ := pools
    · cases h
    · obtain ⟨url, body, hasked, hbody, hread, hsome⟩ :=
        (PoolSource.looksUp base pool t).published h
      exact ⟨url, body, hasked, hbody, Aggregation.published_iff_of_parse hread,
        List.length_pos_iff.1 hsome⟩

end Client

end StatusList
