import StatusList.Command.Report
import StatusList.Proofs.Json.Values
import StatusList.Proofs.Lookup.Annotations
import StatusList.Proofs.Service.Queries
import StatusList.Proofs.Url.Forms

/-!
# Answers

A lookup can be asked for by a request to the service and by a command of the program. Both
tell how it ends, the one in the status of its response and the other in the code with which
it exits, and both show what is found: they write the same value, though in different
layouts (`Shows`). Of an entry the program prints the number (`ShowsEntry`). Whatever is
published and whatever is asked for, they agree with the lookup and so with each other
(`answers_agree`).

In a request the identifier is a part of the target and has to be encoded. The service finds
it there again (`valuesOf_getting`).
-/

namespace StatusList

open Service (Request Response Route)
open Url

/-! ## Requests -/

namespace Service.Request

/-- A path that begins at the root and goes on to its end. -/
structure IsPlainPath (path : List Char) : Prop where
  root : ∃ rest, path = '/' :: rest
  fragment : '#' ∉ path
  query : '?' ∉ path

/-- A path and a query come apart where they were put together. -/
theorem splitTarget_append {path : List Char} (h : IsPlainPath path) {query : Option (List Char)}
    (hquery : ∀ text ∈ query, '#' ∉ text) :
    splitTarget (path ++ (query.map ('?' :: ·)).getD []) = (path, query) := by
  have hall := all_ne_of_not_mem h.query
  have hwhole : (path ++ (query.map ('?' :: ·)).getD []).takeWhile (· ≠ '#') =
      path ++ (query.map ('?' :: ·)).getD [] := by
    refine List.takeWhile_eq_self_iff.2 (all_ne_of_not_mem ?_)
    cases query with
    | none => simpa using h.fragment
    | some text => simpa using ⟨h.fragment, hquery text rfl⟩
  rw [splitTarget, hwhole, List.takeWhile_append_of_pos hall, List.dropWhile_append_of_pos hall]
  -- A path that begins with a slash has no scheme before it.
  obtain ⟨rest, rfl⟩ := h.root
  have hpath : '/' :: rest ++ [] = '/' :: rest := List.append_nil _
  cases query with
  | none => exact congrArg (·, none) hpath
  | some text => exact congrArg (·, some text) hpath

/-- The request to get what a path leads to, with an identifier if one is given. -/
def getting (path : String) (id : Option String) : Request :=
  .ofTarget "GET" (path ++ (id.map fun id => "?id=" ++ .ofList (Form.writeText id)).getD "")

theorem ofTarget_getting {path : String} (h : IsPlainPath path.toList) (id : Option String) :
    getting path id = ⟨"GET", path, id.map fun id => Form.write [("id", id)]⟩ := by
  have hname : Form.writeText "id" = ['i', 'd'] := by decide +kernel
  have hquery : ∀ text ∈ id.map fun id => Form.writeEntry ("id", id), '#' ∉ text := by
    rintro text htext hmem
    obtain ⟨id, -, rfl⟩ := Option.map_eq_some_iff.1 htext
    have hbyte : 35 ∈ Utf8.encode (Form.writeEntry ("id", id)) :=
      List.mem_flatMap.2 ⟨'#', hmem, by decide⟩
    exact Form.not_mem_writeEntry ("id", id) (by decide) (by decide) hbyte
  have htarget : (path ++ (id.map fun id => "?id=" ++ .ofList (Form.writeText id)).getD "").toList =
      path.toList ++ ((id.map fun id => Form.writeEntry ("id", id)).map ('?' :: ·)).getD [] := by
    cases id with
    | none => simp
    | some id => simp [Form.writeEntry, hname]
  rw [getting, ofTarget, htarget, splitTarget_append h hquery]
  cases id with
  | none => simp
  | some id => simp [Form.write, Form.writeEntry]

/-- The one identifier that a request gives is the one that it was made with. -/
theorem valuesOf_getting {path : String} (h : IsPlainPath path.toList) (id : Option String) :
    (getting path id).valuesOf "id" = id.toList := by
  rw [ofTarget_getting h, valuesOf]
  cases id with
  | none => rfl
  | some id => simp [Form.read_write]

theorem isPlainPath_listPath : IsPlainPath Route.listPath.toList :=
  ⟨⟨_, rfl⟩, by decide, by decide⟩

theorem isPlainPath_aggregationPath : IsPlainPath (Route.listPath ++ "/aggregation").toList :=
  ⟨⟨_, rfl⟩, by decide, by decide⟩

end Service.Request

/-! ## Responses and reports -/

variable {α : Type} {t : Transport} {toJson : α → Json}

/-- What is shown of a lookup by a response to a request and by a report of the program. -/
structure Shows (t : Transport) (lookup : Fetching (Outcome α)) (toJson : α → Json)
    (response : Fetching Response) (report : Fetching Report) : Prop where
  /-- Both ask for what the lookup asks for. -/
  asked : response.asked t = lookup.asked t ∧ report.asked t = lookup.asked t
  /-- Both tell that something was found just if it was. -/
  found : ((response.run t).status = 200 ↔ ∃ value, lookup.run t = .found value) ∧
    ((report.run t).exit = 0 ↔ ∃ value, lookup.run t = .found value)
  /-- Both tell that there was nothing to be found just if there was not. -/
  notFound : ((response.run t).status = 404 ↔ lookup.run t = .notFound) ∧
    ((report.run t).exit = 2 ↔ lookup.run t = .notFound)
  /-- Both tell that something is wrong just if it is. -/
  invalid : ((response.run t).status = 400 ↔ lookup.run t = .invalid) ∧
    ((report.run t).exit = 1 ↔ lookup.run t = .invalid)
  /-- Both write the JSON of what was found. -/
  written : ∀ value, lookup.run t = .found value →
    Json.ofText (response.run t).content.body = .ok (toJson value) ∧
      Json.ofText (report.run t).output = .ok (toJson value)

/-- What the program shows of the entry at an index of a list that is looked up. -/
structure ShowsEntry (t : Transport) (lookup : Fetching (Outcome Document)) (index : UInt32)
    (report : Fetching Report) : Prop where
  /-- The program asks for what the lookup asks for. -/
  asked : report.asked t = lookup.asked t
  /-- Of an entry the number is printed. -/
  inside : ∀ d, lookup.run t = .found d → index.toNat < d.total →
    ∃ value, d.status? index = some value ∧
      report.run t = ⟨0, toString value.toNat ++ "\n", none⟩
  /-- Where the list has no entry nothing is printed. -/
  outside : ∀ d, lookup.run t = .found d → d.total ≤ index.toNat →
    (report.run t).exit = 1 ∧ (report.run t).output = ""
  notFound : lookup.run t = .notFound → (report.run t).exit = 2 ∧ (report.run t).output = ""
  invalid : lookup.run t = .invalid → (report.run t).exit = 1 ∧ (report.run t).output = ""

/-- A lookup is shown in both ways, if the JSON of what is found reads back. -/
theorem shows_ofOutcome (lookup : Fetching (Outcome α)) (resource : String)
    (hfits : ∀ value, Json.Fits (toJson value)) :
    Shows t lookup toJson (do return .ofOutcome resource toJson (← lookup))
      (do return .ofOutcome (fun value => .ok (toJson value).pretty) (← lookup)) := by
  have hresponse : Fetching.run t (do return Response.ofOutcome resource toJson (← lookup)) =
      .ofOutcome resource toJson (lookup.run t) := by
    rw [Fetching.run_bind, Fetching.run_pure]
  have hreport : Fetching.run t
      (do return Report.ofOutcome (fun value => .ok (toJson value).pretty) (← lookup)) =
        .ofOutcome (fun value => .ok (toJson value).pretty) (lookup.run t) := by
    rw [Fetching.run_bind, Fetching.run_pure]
  refine ⟨?_, ?_, ?_, ?_, fun value hvalue => ?_⟩
  · simp only [Fetching.asked_bind, Fetching.asked_pure, List.append_nil, and_self]
  · rw [hresponse, hreport]
    cases lookup.run t <;>
      simp [Response.ofOutcome, Response.ok, Response.failure, Report.ofOutcome, Report.ofResult]
  · rw [hresponse, hreport]
    cases lookup.run t <;>
      simp [Response.ofOutcome, Response.ok, Response.failure, Report.ofOutcome, Report.ofResult]
  · rw [hresponse, hreport]
    cases lookup.run t <;>
      simp [Response.ofOutcome, Response.ok, Response.failure, Report.ofOutcome, Report.ofResult]
  · rw [hresponse, hreport, hvalue]
    exact ⟨Json.ofText_compact (hfits value), Json.ofText_pretty_line (hfits value)⟩

/-! ## What is found -/

theorem Document.fits_toJson (d : Document) : Json.Fits d.toJson := by
  have hbyte : ∀ value : UInt8, value.toNat < 2 ^ 64 := fun value =>
    value.toNat_lt.trans (by decide)
  refine Json.Fits.record fun member hmem value hvalue => ?_
  simp only [List.mem_cons, List.not_mem_nil, or_false] at hmem
  rcases hmem with rfl | rfl | rfl | rfl
  · obtain rfl := Option.some.inj hvalue
    exact .array (List.forall_mem_map.2 fun value _ => .ofNat (hbyte value))
  · obtain rfl := Option.some.inj hvalue
    refine .ofNat ?_
    cases d.list.width <;> decide
  · obtain rfl := Option.some.inj hvalue
    exact .ofNat (d.size_lt.trans (by decide))
  · obtain ⟨uri, -, rfl⟩ := Option.map_eq_some_iff.1 hvalue
    exact .string uri

theorem Aggregation.fits_toJson (a : Aggregation) : Json.Fits a.toJson := by
  refine Json.Fits.record fun member hmem value hvalue => ?_
  obtain rfl := List.mem_singleton.1 hmem
  obtain rfl := Option.some.inj hvalue
  exact .array (List.forall_mem_map.2 fun uri _ => .string uri)

/-- The response that shows a document has the JSON of the document. -/
theorem Service.ListResponse.toJson_ofDocument (d : Document) :
    (ListResponse.ofDocument d).toJson = d.toJson := by
  have hbits : d.list.width.bits.toUInt8.toNat = d.list.width.bits := by
    cases d.list.width <;> rfl
  have htotal : d.total.toUInt32.toNat = d.total := Nat.mod_eq_of_lt d.size_lt
  rw [toJson, ofDocument, hbits, htotal]
  rfl

/-! ## The service and the program -/

/-- The request to get what a path of lookups leads to comes to the query for the identifier that
    it was made with. -/
theorem Service.answer_getting {path : String} (h : Request.IsPlainPath path.toList) {route : Route}
    {query : Option String → Service.Query} (hroute : Route.ofPath? path = some route)
    (hquery : route.query? = some query) (c : Client) (id : Option String) :
    answer c (.getting path id) = (query id).respond c := by
  have hpath : (Request.getting path id).path = path := by rw [Request.ofTarget_getting h]
  have hmethod : (Request.getting path id).method = "GET" := by rw [Request.ofTarget_getting h]
  refine answer_of_query ?_ c
  rw [Request.asksFor_of_getting (hpath.symm ▸ hroute) hquery hmethod, Request.identifier,
    Request.valuesOf_getting h]
  cases id <;> rfl

/-- The response to a request for a list. -/
theorem Service.answer_list (c : Client) (id : Option String) :
    answer c (.getting Route.listPath id) =
      do return .ofOutcome "status list" Document.toJson (← c.list id) := by
  have hroute : Route.ofPath? Route.listPath = some .list := by decide
  rw [answer_getting Request.isPlainPath_listPath hroute rfl, Query.respond]
  simp only [ListResponse.toJson_ofDocument]

/-- The response to a request for the lists of a pool. -/
theorem Service.answer_aggregation (c : Client) (id : Option String) :
    answer c (.getting (Route.listPath ++ "/aggregation") id) =
      do return .ofOutcome "status list aggregation" Aggregation.toJson (← c.aggregation id) := by
  have hroute : Route.ofPath? (Route.listPath ++ "/aggregation") = some .aggregation := by decide
  rw [answer_getting Request.isPlainPath_aggregationPath hroute rfl, Query.respond]

/-- What the program makes of the outcome of a lookup where the number of an entry is
    asked for. -/
theorem Command.showsEntry (settings : Settings) (reference : String) (index : UInt32) :
    ShowsEntry t ((Client.ofSettings settings none).list (some reference)) index
      (fetchWith settings reference (some index) none) := by
  have hreport : (fetchWith settings reference (some index) none).run t =
      .ofOutcome (renderDocument (some index))
        (((Client.ofSettings settings none).list (some reference)).run t) := by
    rw [fetchWith, Fetching.run_bind, Fetching.run_pure]
    rfl
  refine ⟨?_, fun d hfound hindex => ?_, fun d hfound hindex => ?_, fun hnotFound => ?_,
    fun hinvalid => ?_⟩
  · rw [fetchWith, Fetching.asked_bind, Fetching.asked_pure, List.append_nil]
    rfl
  · cases hvalue : d.status? index with
    | none => exact absurd (Document.status?_eq_none_iff.1 hvalue) (Nat.not_le.2 hindex)
    | some value =>
      refine ⟨value, rfl, ?_⟩
      rw [hreport, hfound, Report.ofOutcome, renderDocument, hvalue]
      rfl
  · have hvalue := Document.status?_eq_none_iff.2 hindex
    rw [hreport, hfound, Report.ofOutcome, renderDocument, hvalue]
    exact ⟨rfl, rfl⟩
  · rw [hreport, hnotFound]
    exact ⟨rfl, rfl⟩
  · rw [hreport, hinvalid]
    exact ⟨rfl, rfl⟩

/-- Whatever the settings are and whatever is published, the service and the program tell of
    a list, of the lists of a pool and the program of an entry what comes of the lookup. -/
theorem answers_agree (settings : Settings) (t : Transport) :
    (∀ reference, Shows t ((Client.ofSettings settings none).list (some reference))
      Document.toJson
      (Service.answer (.ofSettings settings none) (.getting Route.listPath (some reference)))
      (Command.fetchWith settings reference none none)) ∧
    (∀ reference index, ShowsEntry t ((Client.ofSettings settings none).list (some reference))
      index (Command.fetchWith settings reference (some index) none)) ∧
    ∀ pool, Shows t ((Client.ofSettings settings none).aggregation pool) Aggregation.toJson
      (Service.answer (.ofSettings settings none)
        (.getting (Route.listPath ++ "/aggregation") pool))
      (Command.aggregationWith settings pool none) := by
  refine ⟨fun reference => ?_, fun reference index => Command.showsEntry settings reference index,
    fun pool => ?_⟩
  · rw [Service.answer_list]
    exact shows_ofOutcome _ _ Document.fits_toJson
  · rw [Service.answer_aggregation]
    exact shows_ofOutcome _ _ Aggregation.fits_toJson

end StatusList
