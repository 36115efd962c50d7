import StatusList.Proofs.Answers
import StatusList.Proofs.Lookup.Entries
import StatusList.Proofs.Lookup.Published
import StatusList.Proofs.Packed.Entries
import StatusList.Proofs.Service.Queries

/-!
# Contents

A response that tells of something found holds JSON of one form, and it does so whatever has
been published and by whom (`contents_of_found`). A list has entries, and they are as many as
there are said to be, fill whole bytes, are no more than can be inflated and are no wider than
the width of the list (`IsListOf`). Of a pool the places of its lists are shown as they have
been told, and there is one at least.

What makes it so is spread over the whole way: a query finds nothing that is empty, a document
has a width that was read and bytes that were inflated under a limit, and its entries are taken
out of the bytes under a mask.
-/

namespace StatusList

/-! ## Lists -/

/-- JSON shows a list of values of so many bits each. -/
structure IsListOf (json : Json) (bits : Nat) (values : List Nat) : Prop where
  bitsPerStatus : json.member? "bitsPerStatus" = some (.ofNat bits)
  statusList : json.member? "statusList" = some (.array (values.map .ofNat))
  totalStatuses : json.member? "totalStatuses" = some (.ofNat values.length)
  width : bits ∈ [1, 2, 4, 8]
  nonempty : values ≠ []
  /-- The values fill whole bytes. -/
  dvd : 8 / bits ∣ values.length
  /-- There are no more bytes than may be inflated. -/
  length_le : values.length ≤ 2 ^ 26 * 8 / bits
  /-- No value is wider than it may be. -/
  value_le : ∀ value ∈ values, value ≤ 2 ^ bits - 1

namespace Document

variable {d : Document}

theorem length_values (d : Document) : (d.list.toList.map UInt8.toNat).length = d.total := by
  rw [List.length_map, Packed.length_toList, total]

theorem total_eq (d : Document) : d.total = d.list.bytes.size * (8 / d.list.width.bits) := rfl

theorem value_le_of_mem {value : Nat} (h : value ∈ d.list.toList.map UInt8.toNat) :
    value ≤ 2 ^ d.list.width.bits - 1 := by
  obtain ⟨entry, hentry, rfl⟩ := List.mem_map.1 h
  obtain ⟨i, hi, rfl⟩ := List.getElem_of_mem hentry
  rw [Packed.getElem_toList, ← Packed.mask_eq]
  exact Packed.entry_le_mask _

/-- A document that is not empty and has been inflated shows its entries. -/
theorem isListOf (hsome : 0 < d.total) (hsize : d.list.bytes.size ≤ largestPacked) :
    IsListOf d.toJson d.list.width.bits (d.list.toList.map UInt8.toNat) where
  bitsPerStatus := by
    rw [toJson]
    cases d.aggregationUri <;> rfl
  statusList := by
    rw [toJson, List.map_map]
    cases d.aggregationUri <;> rfl
  totalStatuses := by
    rw [toJson, length_values]
    cases d.aggregationUri <;> rfl
  width := by cases d.list.width <;> decide
  nonempty := List.ne_nil_of_length_pos (d.length_values.symm ▸ hsome)
  dvd := by
    rw [length_values, total_eq]
    exact Nat.dvd_mul_left _ _
  length_le := by
    rw [length_values, total_eq]
    have hle : d.list.bytes.size ≤ 2 ^ 26 := hsize
    cases d.list.width <;> simp only [Width.bits] <;> omega
  value_le _ := value_le_of_mem

end Document

namespace Service

variable {c : Client} {t : Transport} {r : Request}

/-! ## Responses -/

/-- What is shown of a list that has been found. -/
theorem run_respond_list {id : Option String} {d : Document} (h : (c.list id).run t = .found d) :
    ((Query.list id).respond c).run t = .ok (.json d.toJson) := by
  rw [Query.respond, Fetching.run_bind, Fetching.run_pure, h, Response.ofOutcome,
    ListResponse.toJson_ofDocument]

/-- What is shown of the lists of a pool that have been found. -/
theorem run_respond_pool {id : Option String} {a : Aggregation}
    (h : (c.aggregation id).run t = .found a) :
    ((Query.pool id).respond c).run t = .ok (.json a.toJson) := by
  rw [Query.respond, Fetching.run_bind, Fetching.run_pure, h, Response.ofOutcome]

theorem bodyFor_of_getting (hmethod : r.method = "GET") (response : Response) :
    bodyFor r response = response.content.body := by
  have hget : ¬r.method = "HEAD" := by
    rw [hmethod]
    decide
  exact if_neg hget

/-- To get a list, where one is found, shows the entries of the document that is published at
    the one URL that is asked for. -/
theorem contents_of_list (hpath : r.path = Route.listPath) (hmethod : r.method = "GET")
    (hok : ((answer c r).run t).status = 200) :
    ∃ url published d json, (answer c r).asked t = [url] ∧ t url = .ok published ∧
      Document.read c.lists.verifier published = .ok d ∧
      Json.ofText (bodyFor r ((answer c r).run t)) = .ok json ∧
      IsListOf json d.list.width.bits (d.list.toList.map UInt8.toNat) := by
  have hroute : Route.ofPath? r.path = some .list := hpath ▸ by decide
  obtain ⟨id, hanswer, hending⟩ := exists_query_of_getting hroute rfl hmethod hok
  obtain ⟨d, hfound, -⟩ := Outcome.map_eq_found_iff.1 hending
  obtain ⟨url, published, hasked, hpublished, hread, hsome⟩ := Client.published_of_list hfound
  refine ⟨url, published, d, d.toJson, ?_, hpublished, hread, ?_,
    Document.isListOf hsome (Document.size_le_of_read hread)⟩
  · rw [hanswer, Query.asked_respond, Query.asked, hasked]
  · rw [bodyFor_of_getting hmethod, hanswer, run_respond_list hfound]
    exact Json.ofText_compact d.fits_toJson

/-- To get the lists of a pool, where there are any, shows their places in the order in which
    they are told at the one URL that is asked for. -/
theorem contents_of_pool (hpath : r.path = Route.listPath ++ "/aggregation")
    (hmethod : r.method = "GET") (hok : ((answer c r).run t).status = 200) :
    ∃ url published uris json, (answer c r).asked t = [url] ∧ t url = .ok published ∧
      (∀ told, Aggregation.Published published told ↔ told = uris) ∧
      Json.ofText (bodyFor r ((answer c r).run t)) = .ok json ∧
      json.member? "status_lists" = some (.array (uris.map .string)) ∧ uris ≠ [] := by
  have hroute : Route.ofPath? r.path = some .aggregation := hpath ▸ by decide
  obtain ⟨id, hanswer, hending⟩ := exists_query_of_getting hroute rfl hmethod hok
  obtain ⟨a, hfound, -⟩ := Outcome.map_eq_found_iff.1 hending
  obtain ⟨url, published, hasked, hpublished, htold, hsome⟩ :=
    Client.published_of_aggregation hfound
  refine ⟨url, published, a.uris, a.toJson, ?_, hpublished, htold, ?_, rfl, hsome⟩
  · rw [hanswer, Query.asked_respond, Query.asked, hasked]
  · rw [bodyFor_of_getting hmethod, hanswer, run_respond_pool hfound]
    exact Json.ofText_compact a.fits_toJson

/-- To get a list, where one is found, one URL is asked for, and the response holds JSON that
    shows the entries of the document found there. To get the lists of a pool, where there are
    any, one URL is asked for, and the response holds JSON that shows their places in the order
    in which they are told there. Nothing is assumed of what is published. -/
theorem contents_of_found (c : Client) (t : Transport) (r : Request) (hmethod : r.method = "GET")
    (hok : ((answer c r).run t).status = 200) :
    let body := bodyFor r ((answer c r).run t)
    (r.path = Route.listPath →
      ∃ url published d json, (answer c r).asked t = [url] ∧ t url = .ok published ∧
        Document.read c.lists.verifier published = .ok d ∧ Json.ofText body = .ok json ∧
        IsListOf json d.list.width.bits (d.list.toList.map UInt8.toNat)) ∧
    (r.path = Route.listPath ++ "/aggregation" →
      ∃ url published uris json, (answer c r).asked t = [url] ∧ t url = .ok published ∧
        (∀ told, Aggregation.Published published told ↔ told = uris) ∧
        Json.ofText body = .ok json ∧
        json.member? "status_lists" = some (.array (uris.map .string)) ∧ uris ≠ []) :=
  ⟨fun hpath => contents_of_list hpath hmethod hok,
    fun hpath => contents_of_pool hpath hmethod hok⟩

/-- A client that looks up lists and pools below one base. -/
def trialClient : Client := ⟨⟨some listsBase, none⟩, ⟨some listsBase⟩, none, true⟩

/-- What is published are a list and a pool that has it. -/
def listAndPool : Transport := fun url =>
  if url.text = "https://base.example/v1/lists/7" then .ok Client.trialBody.toUTF8
  else if url.text = "https://base.example/v1/lists/pool" then
    .ok "\x7b\"status_lists\":[\"https://base.example/v1/lists/7\"]\x7d".toUTF8
  else .error (.status url 404 "")

/-- A list and the lists of a pool are found. -/
theorem contents_of_list_and_pool :
    let list : Request := ⟨"GET", "/ui/status-list", some "id=7"⟩
    let pool : Request := ⟨"GET", "/ui/status-list/aggregation", some "id=pool"⟩
    (((answer trialClient list).run listAndPool).status = 200 ∧
      ∃ json bits values,
        Json.ofText (bodyFor list ((answer trialClient list).run listAndPool)) = .ok json ∧
          IsListOf json bits values) ∧
    ((answer trialClient pool).run listAndPool).status = 200 ∧
      ∃ json uris,
        Json.ofText (bodyFor pool ((answer trialClient pool).run listAndPool)) = .ok json ∧
          json.member? "status_lists" = some (.array (uris.map .string)) ∧ uris ≠ [] := by
  intro list pool
  have hlist : ((answer trialClient list).run listAndPool).status = 200 := by decide +kernel
  have hpool : ((answer trialClient pool).run listAndPool).status = 200 := by decide +kernel
  obtain ⟨-, -, d, json, -, -, -, hjson, hshows⟩ :=
    (contents_of_found trialClient listAndPool list rfl hlist).1 rfl
  obtain ⟨-, -, uris, json', -, -, -, hjson', huris⟩ :=
    (contents_of_found trialClient listAndPool pool rfl hpool).2 (by decide)
  exact ⟨⟨hlist, json, _, _, hjson, hshows⟩, hpool, json', uris, hjson', huris⟩

end Service

end StatusList
