import StatusList.Proofs.Lookup.Entries

/-!
# Which URL a reference stands for

Blanks around a reference do not count. What is left of it is asked for as it is only if it is a
URL over HTTP, in whatever case its scheme is written. Everything else is an identifier and
nothing more, be it a URL of another scheme or no URL at all: it is put behind the base, or
refused where there is none (`Resolves`).

So a reference, which may come from anywhere, cannot make a client ask for anything but URLs over
HTTP, if its base is not of another scheme (`AsksOverHttp`).

* `references_stay_on_http`: references are resolved in this way, and no other URL is asked for.
-/

namespace StatusList

open Url

/-- The scheme of a text, in whatever case it is written, is one of HTTP. -/
def Url.HasWebScheme (text : String) : Prop :=
  String.ofList ((writtenScheme text).map Char.toLower) ∈ ["http", "https"]

theorem Url.isHttp_iff_hasWebScheme {text : String} {url : Url} (h : parse? text = some url) :
    url.isHttp = true ↔ HasWebScheme text := by
  rw [HasWebScheme, ← scheme_of_parse? h, isHttp, decide_eq_true_iff, List.mem_cons,
    List.mem_singleton]

/-- A URL below a base has the scheme of the base. -/
theorem Url.isHttp_of_urlBelow {base url : Url} {identifier : String}
    (h : urlBelow base identifier = .ok url) : url.isHttp = base.isHttp := by
  rw [urlBelow, appendSegment?] at h
  cases hpath : base.path with
  | rootless rest => simp [hpath] at h
  | rooted segments =>
    simp only [hpath, Except.ok.injEq] at h
    rw [← h, isHttp, isHttp]
  | guarded segments =>
    simp only [hpath, Except.ok.injEq] at h
    rw [← h, isHttp, isHttp]

namespace ListSource

/-- A text is a URL to be asked for as it is. -/
def IsWeb (text : String) : Prop := ∃ url, parse? text = some url ∧ HasWebScheme text

/-- What a reference stands for. -/
structure Resolves (s : ListSource) (reference : String) : Prop where
  /-- Blanks around the reference do not count. -/
  trimmed : s.resolve reference = s.resolve (Text.trim reference)
  /-- A URL over HTTP stands for itself, whatever the base is. -/
  web : ∀ url, parse? (Text.trim reference) = some url → HasWebScheme (Text.trim reference) →
    s.resolve reference = .ok url
  /-- Every other reference is put behind the base. -/
  below : ¬IsWeb (Text.trim reference) → ∀ base, s.base = some base →
    s.resolve reference = urlBelow base (Text.trim reference)
  /-- Without a base it stands for nothing. -/
  alone : ¬IsWeb (Text.trim reference) → s.base = none →
    s.resolve reference = .error (.noBase (Text.trim reference))

theorem webUrl?_eq_some_iff {text : String} {url : Url} :
    webUrl? text = some url ↔ parse? text = some url ∧ HasWebScheme text := by
  rw [webUrl?, Option.filter_eq_some_iff]
  exact and_congr_right fun h => isHttp_iff_hasWebScheme h

theorem webUrl?_eq_none_iff {text : String} : webUrl? text = none ↔ ¬IsWeb text := by
  rw [Option.eq_none_iff_forall_ne_some, IsWeb, not_exists]
  exact forall_congr' fun url => not_congr webUrl?_eq_some_iff

/-- References are resolved. -/
theorem resolves (s : ListSource) (reference : String) : s.Resolves reference where
  trimmed := by rw [resolve, resolve, Text.trim_trim]
  web url hurl hscheme := by rw [resolve, webUrl?_eq_some_iff.2 ⟨hurl, hscheme⟩]
  below hother base hbase := by rw [resolve, webUrl?_eq_none_iff.2 hother, hbase]
  alone hother hbase := by rw [resolve, webUrl?_eq_none_iff.2 hother, hbase]

/-- No reference stands for a URL of another scheme, if the base is not one. -/
theorem isHttp_of_resolve {s : ListSource} (hbase : ∀ base ∈ s.base, base.isHttp = true)
    {reference : String} {url : Url} (h : s.resolve reference = .ok url) : url.isHttp = true := by
  have hresolves := s.resolves reference
  by_cases hweb : IsWeb (Text.trim reference)
  · obtain ⟨target, htarget, hscheme⟩ := hweb
    rw [hresolves.web target htarget hscheme] at h
    rw [← Except.ok.inj h]
    exact (isHttp_iff_hasWebScheme htarget).2 hscheme
  · cases hsome : s.base with
    | none =>
      rw [hresolves.alone hweb hsome] at h
      cases h
    | some base =>
      rw [hresolves.below hweb base hsome] at h
      rw [isHttp_of_urlBelow h]
      exact hbase base hsome

end ListSource

namespace Client

variable {c : Client}

/-- Whatever is found at each URL, a client asks for no other URLs than those over HTTP. -/
structure AsksOverHttp (c : Client) : Prop where
  lookup : ∀ t reference, ∀ url ∈ (c.lists.fetch reference).asked t, url.isHttp = true
  list : ∀ t id, ∀ url ∈ (c.list id).asked t, url.isHttp = true
  status? : ∀ t r, ∀ url ∈ (c.status? r).asked t, url.isHttp = true
  annotate : ∀ t presentation, ∀ url ∈ (c.annotate presentation).asked t, url.isHttp = true
  /-- Also while the lookups for a presentation go on at the same time. -/
  interleaved : ∀ t presentation urls cs,
    Fetching.Interleaved t (c.lookups presentation) urls cs → ∀ url ∈ urls, url.isHttp = true

/-- What a reference has asked for is over HTTP. -/
theorem isHttp_of_mem_resolve (hbase : ∀ base ∈ c.lists.base, base.isHttp = true)
    {reference : String} {url : Url} (h : url ∈ (c.lists.resolve reference).toOption.toList) :
    url.isHttp = true := by
  cases hresolve : c.lists.resolve reference with
  | error cause => simp [hresolve, Except.toOption] at h
  | ok target =>
    obtain rfl : url = target := by simpa [hresolve, Except.toOption] using h
    exact ListSource.isHttp_of_resolve hbase hresolve

theorem isHttp_of_interleaved (hbase : ∀ base ∈ c.lists.base, base.isHttp = true) {t : Transport}
    {presentation : List Json} {urls : List Url} {cs : List (Fetching (Option Annotation))}
    (h : Fetching.Interleaved t (c.lookups presentation) urls cs) :
    ∀ url ∈ urls, url.isHttp = true := by
  intro url hurl
  -- What has been answered is among what all the lookups ask for.
  have hmem := h.perm_append.mem_iff.2 (List.mem_append_left _ hurl)
  obtain ⟨lookup, hlookup, hasked⟩ := List.mem_flatMap.1 hmem
  obtain ⟨⟨number, r⟩, -, rfl⟩ := List.mem_map.1 hlookup
  rw [asked_annotateOne] at hasked
  exact isHttp_of_mem_resolve hbase hasked

theorem isHttp_of_annotated (hbase : ∀ base ∈ c.lists.base, base.isHttp = true) {t : Transport}
    {presentation : List Json} {urls : List Url} {result : Option (List Annotation)}
    (h : Annotated c t presentation urls result) : ∀ url ∈ urls, url.isHttp = true := by
  cases h with
  | off => exact List.forall_mem_nil _
  | on _ hend => exact isHttp_of_interleaved hbase hend

theorem asksOverHttp (hbase : ∀ base ∈ c.lists.base, base.isHttp = true) : AsksOverHttp c := by
  have hlookup : ∀ t reference, ∀ url ∈ (c.lists.fetch reference).asked t, url.isHttp = true := by
    intro t reference url hurl
    rw [(c.lists.looksUp reference t).asked.2] at hurl
    exact isHttp_of_mem_resolve hbase hurl
  refine ⟨hlookup, fun t id => ?_, fun t r url hurl => ?_, fun t presentation => ?_,
    fun t presentation urls cs => isHttp_of_interleaved hbase⟩
  · rw [list]
    cases identifier? id with
    | none => exact List.forall_mem_nil _
    | some id => exact hlookup t id
  · rw [asked_status?] at hurl
    exact isHttp_of_mem_resolve hbase hurl
  · exact isHttp_of_annotated hbase (annotated_annotate c t presentation)

end Client

/-- References are resolved by their schemes, and with a base over HTTP or without one a client
    asks for nothing else than URLs over HTTP. -/
theorem references_stay_on_http :
    (∀ (s : ListSource) (reference : String), s.Resolves reference) ∧
    ∀ c : Client, (∀ base ∈ c.lists.base, base.isHttp = true) → c.AsksOverHttp :=
  ⟨ListSource.resolves, fun _ => Client.asksOverHttp⟩

/-- What looks like a host with a port has another scheme, and so it is an identifier. -/
theorem references_stay_on_http_at_localhost :
    (∀ base ∈ Client.trialClient.lists.base, base.isHttp = true) ∧
    ¬ListSource.IsWeb (Text.trim " localhost:8080/x") ∧
    Client.trialClient.lists.resolve " localhost:8080/x" = urlBelow listsBase "localhost:8080/x" ∧
    ∀ url ∈ (Client.trialClient.status? ⟨" localhost:8080/x", 0⟩).asked Client.unnamedList,
      url.isHttp = true := by
  have hbase : ∀ base ∈ Client.trialClient.lists.base, base.isHttp = true := by
    rintro base ⟨⟩
    decide
  have hother : ¬ListSource.IsWeb (Text.trim " localhost:8080/x") :=
    ListSource.webUrl?_eq_none_iff.1 (by decide +kernel)
  have hresolve := (references_stay_on_http.1 Client.trialClient.lists _).below hother listsBase rfl
  have htrim : Text.trim " localhost:8080/x" = "localhost:8080/x" := by decide +kernel
  rw [htrim] at hresolve
  exact ⟨hbase, hother, hresolve, (references_stay_on_http.2 Client.trialClient hbase).status? _ _⟩

end StatusList
