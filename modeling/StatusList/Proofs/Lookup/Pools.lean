import StatusList.Proofs.Lookup.Confinement
import StatusList.Proofs.Lookup.Published
import StatusList.Proofs.Rearrangements
import StatusList.Proofs.Text.Blank
import StatusList.Proofs.Url.Lengths

/-!
# Which pool is asked for

A pool is asked for by its identifier, without the blanks around it, and where the identifier is
missing or has nothing but blanks, the pool of the settings is (`Client.Means`). There is no
other way to that pool: an identifier that means a pool is asked for whatever the settings say,
and if nothing comes of it, that is the end.

One URL is asked for, the one of the pool below the base, even if the identifier is a URL itself.
What is found there has to be a document that tells the lists of the pool
(`Aggregation.IsDocument`): they are told in the order of the document, and a document without
any is not found (`Aggregation.Ends`).

* `pools_asked_for`: the lists of a pool are looked up in this way.
-/

namespace StatusList

open Url

namespace Aggregation

open Json (Node)

/-! ## Documents -/

/-- A body is a document that tells the places of the lists of a pool. -/
def IsDocument (body : ByteArray) (uris : List String) : Prop :=
  Json.parse record.read body.data.toList = .ok ⟨uris⟩

/-- The places in a document are the ones that are published in it, in their order, and every
    text of an object that has them as `status_lists`, among whatever else, is a document. -/
structure TellsPlaces (body : ByteArray) (uris : List String) : Prop where
  published : IsDocument body uris → ∀ uris', Published body uris' ↔ uris' = uris
  isDocument {members : List (Json.Literal × Node)}
    (hmembers : Rearranged [(.ok "status_lists", .ofStrings uris)] members)
    (htext : (Node.object members .closed).IsText body.data.toList) : IsDocument body uris

theorem tellsPlaces (body : ByteArray) (uris : List String) : TellsPlaces body uris where
  published h := published_iff_of_parse h
  isDocument hmembers htext := by
    have hone : record.read (.object [(.ok "status_lists", .ofStrings uris)] .closed) =
        .ok ⟨uris⟩ := by
      have hput : record.putMembers [] record.blank [(.ok "status_lists", .ofStrings uris)] =
          .ok (some uris) := by
        refine Json.Record.putMembers_cons_eq_ok_iff.2
          ⟨_, rfl, .inr ⟨_, some uris, rfl, List.not_mem_nil, ?_, rfl⟩⟩
        exact bind_eq_ok_iff.2 ⟨uris, Json.Reader.list_string_eq_ok_iff.2 rfl, rfl⟩
      exact Json.Record.read_object_eq_ok_iff.2 ⟨some uris, hput, rfl⟩
    rw [IsDocument, htext.parse_eq]
    exact arrangeable.read_rearranged hmembers hone

/-- How a query for the lists of a pool ends with what is found at its URL. -/
structure Ends (answer : Except FetchError ByteArray) (outcome : Outcome Aggregation) : Prop where
  /-- A document that tells of lists is found. -/
  found : ∀ uris, outcome = .found ⟨uris⟩ ↔
    ∃ body, answer = .ok body ∧ IsDocument body uris ∧ uris ≠ []
  /-- A document that tells of none is not. -/
  notFound : outcome = .notFound ↔ ∃ body, answer = .ok body ∧ IsDocument body []
  /-- It is invalid that there is nothing, or no document. -/
  invalid : outcome = .invalid ↔ (∃ failure, answer = .error failure) ∨
    ∃ body, answer = .ok body ∧ ∀ uris, ¬IsDocument body uris

end Aggregation

namespace PoolSource

/-- Without a base that something can be put behind, nothing is asked for. -/
theorem asks_nothing {s : PoolSource}
    (h : ∀ base, s.base = some base → base.path.segments? = none) (pool : String) (t : Transport) :
    (s.fetch pool).asked t = [] ∧ (s.fetch pool).run t = .invalid := by
  obtain ⟨_ | base⟩ := s
  · exact ⟨rfl, rfl⟩
  · have hurl : urlBelow base pool = .error (.rootlessBase base) := by
      have hroot := h base rfl
      rw [urlBelow, appendSegment?]
      cases hpath : base.path with
      | rootless rest => rfl
      | rooted segments => simp [hpath, Path.segments?] at hroot
      | guarded segments => simp [hpath, Path.segments?] at hroot
    have hlooksUp := looksUp base pool t
    rw [hurl] at hlooksUp
    exact ⟨hlooksUp.asked.2, hlooksUp.invalid.2 ⟨_, (hlooksUp.attempted _).2 (.unresolved rfl)⟩⟩

/-- The lists of a pool are looked up at its URL below the base. -/
theorem ends_of_urlBelow {base url : Url} {pool : String} (hurl : urlBelow base pool = .ok url)
    (t : Transport) : Aggregation.Ends (t url) (((⟨some base⟩ : PoolSource).fetch pool).run t) := by
  have hlooksUp := looksUp base pool t
  rw [hurl] at hlooksUp
  have hattempt : ∀ uris, (((⟨some base⟩ : PoolSource).tryFetch pool).run t = .ok ⟨uris⟩ ↔
      ∃ body, t url = .ok body ∧ Aggregation.IsDocument body uris) := by
    intro uris
    rw [hlooksUp.attempted]
    constructor
    · rintro (_ | _ | _ | ⟨⟨⟩, hbody, hread⟩)
      exact ⟨_, hbody, hread⟩
    · rintro ⟨body, hbody, hread⟩
      exact .read rfl hbody hread
  constructor
  · intro uris
    rw [hlooksUp.found, hattempt, List.length_pos_iff, ← exists_and_right]
    simp only [and_assoc]
  · rw [hlooksUp.notFound]
    constructor
    · rintro ⟨⟨uris⟩, hrun, hnone⟩
      obtain rfl := List.length_eq_zero_iff.1 hnone
      exact (hattempt []).1 hrun
    · intro h
      exact ⟨⟨[]⟩, (hattempt []).2 h, rfl⟩
  · rw [hlooksUp.invalid]
    constructor
    · rintro ⟨cause, hrun⟩
      cases hfound : t url with
      | error failure => exact .inl ⟨failure, rfl⟩
      | ok body =>
        refine .inr ⟨body, rfl, fun uris hread => ?_⟩
        exact nomatch hrun.symm.trans ((hattempt uris).2 ⟨body, hfound, hread⟩)
    · intro h
      cases hrun : ((⟨some base⟩ : PoolSource).tryFetch pool).run t with
      | error cause => exact ⟨cause, rfl⟩
      | ok a =>
        obtain ⟨body, hbody, hread⟩ := (hattempt a.uris).1 hrun
        rcases h with ⟨failure, hfailure⟩ | ⟨body', hbody', hnone⟩
        · exact nomatch hbody.symm.trans hfailure
        · obtain rfl := Except.ok.inj (hbody.symm.trans hbody')
          exact absurd hread (hnone a.uris)

end PoolSource

namespace Client

/-! ## Identifiers -/

/-- Which pool is meant by an identifier, with another one for where there is none. -/
inductive Means (id other : Option String) : String → Prop where
  /-- The one that the identifier names. -/
  | given {text : String} (hid : id = some text) (hsome : ¬Text.Blank text) :
    Means id other (Text.trim text)
  /-- Where the identifier is missing or blank, the one that the other names. -/
  | other {text : String} (hid : ∀ text, id = some text → Text.Blank text)
    (hother : other = some text) (hsome : ¬Text.Blank text) : Means id other (Text.trim text)

variable {c : Client} {id other : Option String} {pool text : String}

theorem identifier?_of_blank (h : ∀ text, id = some text → Text.Blank text) :
    identifier? id = none := by
  cases id with
  | none => rfl
  | some text =>
    have hempty := Text.trim_eq_empty_iff.2 (h text rfl)
    rw [identifier?, Option.map_some, hempty]
    rfl

theorem identifier?_of_not_blank (h : ¬Text.Blank text) :
    identifier? (some text) = some (Text.trim text) := by
  rw [identifier?, Option.map_some, Option.filter_some, if_pos]
  simpa using mt Text.trim_eq_empty_iff.1 h

theorem means_iff : (identifier? id).or (identifier? other) = some pool ↔ Means id other pool := by
  have hblank : ∀ {id : Option String}, (∀ text, id = some text → Text.Blank text) ∨
      ∃ text, id = some text ∧ ¬Text.Blank text := fun {id} => by
    rw [or_iff_not_imp_left]
    intro h
    simpa using h
  constructor
  · intro h
    rcases @hblank id with hid | ⟨text, rfl, hsome⟩
    · rw [identifier?_of_blank hid, Option.none_or] at h
      rcases @hblank other with hother | ⟨text, rfl, hsome⟩
      · rw [identifier?_of_blank hother] at h
        cases h
      · rw [identifier?_of_not_blank hsome] at h
        cases h
        exact .other hid rfl hsome
    · rw [identifier?_of_not_blank hsome] at h
      cases h
      exact .given rfl hsome
  · intro h
    cases h with
    | given hid hsome => rw [hid, identifier?_of_not_blank hsome, Option.some_or]
    | other hid hother hsome =>
      rw [identifier?_of_blank hid, hother, identifier?_of_not_blank hsome, Option.none_or]

theorem Means.aggregation_eq (h : Means id c.pool pool) :
    c.aggregation id = c.pools.fetch pool := by
  rw [aggregation, means_iff.2 h]

theorem aggregation_of_not_means (h : ∀ pool, ¬Means id c.pool pool) :
    c.aggregation id = pure .invalid := by
  have hnone : (identifier? id).or (identifier? c.pool) = none :=
    Option.eq_none_iff_forall_ne_some.2 fun pool hpool => h pool (means_iff.1 hpool)
  rw [aggregation, hnone]

/-! ## Queries -/

/-- Without a base that something can be put behind, nothing is asked for. -/
theorem asks_nothing {t : Transport}
    (h : ∀ base, c.pools.base = some base → base.path.segments? = none) :
    (c.aggregation id).asked t = [] ∧ (c.aggregation id).run t = .invalid := by
  by_cases hmeans : ∃ pool, Means id c.pool pool
  · obtain ⟨pool, hpool⟩ := hmeans
    rw [hpool.aggregation_eq]
    exact PoolSource.asks_nothing h pool t
  · rw [aggregation_of_not_means (not_exists.1 hmeans)]
    exact ⟨rfl, rfl⟩

/-- What a query for the lists of a pool asks for and how it ends. -/
structure AsksForPool (c : Client) (id : Option String) (t : Transport) : Prop where
  /-- Where no pool is meant, nothing is asked for. -/
  unnamed : (∀ pool, ¬Means id c.pool pool) →
    (c.aggregation id).asked t = [] ∧ (c.aggregation id).run t = .invalid
  /-- Nor is it where there is no base, -/
  baseless : c.pools.base = none →
    (c.aggregation id).asked t = [] ∧ (c.aggregation id).run t = .invalid
  /-- or where nothing can be put behind the base. -/
  rootless : ∀ base, c.pools.base = some base → base.path.segments? = none →
    (c.aggregation id).asked t = [] ∧ (c.aggregation id).run t = .invalid
  /-- In all other cases the URL of the pool below the base is, and never the URL that the
      identifier of the pool is itself. -/
  asked : ∀ pool base segments, Means id c.pool pool → c.pools.base = some base →
    base.path.segments? = some segments →
    ∃ url, urlBelow base pool = .ok url ∧ (c.aggregation id).asked t = [url] ∧
      (∀ own, ListSource.webUrl? pool = some own → own ≠ url) ∧
      Aggregation.Ends (t url) ((c.aggregation id).run t)
  /-- A blank identifier is a missing one. -/
  blank : ∀ text, id = some text → Text.Blank text → c.aggregation id = c.aggregation none
  /-- Where an identifier names a pool, the one of the settings makes no difference. -/
  given : ∀ text, id = some text → ¬Text.Blank text →
    ∀ other, ({ c with pool := other } : Client).aggregation id = c.aggregation id
  /-- The pool of the settings is asked for like one that is named. -/
  settings : c.aggregation none = ({ c with pool := none } : Client).aggregation c.pool

theorem asksForPool (c : Client) (id : Option String) (t : Transport) : AsksForPool c id t where
  unnamed h := by
    rw [aggregation_of_not_means h]
    exact ⟨rfl, rfl⟩
  baseless hbase := asks_nothing fun _ hsome => nomatch hbase.symm.trans hsome
  rootless base hbase hroot := asks_nothing fun base' hbase' => by
    obtain rfl := Option.some.inj (hbase.symm.trans hbase')
    exact hroot
  asked pool base segments hpool hbase hroot := by
    obtain ⟨path, happend, -⟩ := exists_appendSegment? hroot pool
    have hurl : urlBelow base pool = .ok { base with path } := by rw [urlBelow, happend]
    have hquery : c.aggregation id = (⟨some base⟩ : PoolSource).fetch pool := by
      rw [hpool.aggregation_eq, ← hbase]
    have hasked := (PoolSource.looksUp base pool t).asked.2
    rw [hurl] at hasked
    rw [hquery]
    refine ⟨_, hurl, hasked, fun own hown => ?_, PoolSource.ends_of_urlBelow hurl t⟩
    obtain ⟨hparse, hscheme⟩ := ListSource.webUrl?_eq_some_iff.1 hown
    exact ne_of_urlBelow (parse?_eq_some_iff.1 hparse)
      ((isHttp_iff_hasWebScheme hparse).2 hscheme) hurl
  blank text hid hblank := by
    have hnone : identifier? id = none := identifier?_of_blank fun text' hid' => by
      obtain rfl := Option.some.inj (hid.symm.trans hid')
      exact hblank
    rw [aggregation, hnone]
    rfl
  given text hid hsome other := by
    rw [aggregation, aggregation, hid, identifier?_of_not_blank hsome, Option.some_or,
      Option.some_or]
  settings := by
    rw [aggregation, aggregation, show identifier? none = none from rfl, Option.none_or,
      Option.or_none]

end Client

/-- A query for the lists of a pool asks for the pool that is meant, below the base, and for
    nothing else, and it is the document found there that tells the lists. -/
theorem pools_asked_for :
    (∀ (c : Client) (id : Option String) (t : Transport), c.AsksForPool id t) ∧
    ∀ (body : ByteArray) (uris : List String), Aggregation.TellsPlaces body uris :=
  ⟨Client.asksForPool, Aggregation.tellsPlaces⟩

/-- A URL that is given for a pool is put behind the base, and the pool of the settings is asked
    for where a blank is given. -/
theorem pools_asked_for_by_url :
    let c : Client := ⟨⟨none, none⟩, ⟨some listsBase⟩, some "pool-a", false⟩
    let t : Transport := fun _ => .ok "\x7b\"status_lists\":[\"b\",\"a\"]\x7d".toUTF8
    (∃ own url, ListSource.webUrl? "http://[::1]/b" = some own ∧ own ≠ url ∧
      (c.aggregation (some " http://[::1]/b")).asked t = [url] ∧
      (c.aggregation (some " http://[::1]/b")).run t = .found ⟨["b", "a"]⟩) ∧
    c.aggregation (some " ") = c.aggregation none ∧
    ∃ url, urlBelow listsBase "pool-a" = .ok url ∧ (c.aggregation none).asked t = [url] := by
  intro c t
  have hgiven : Client.Means (some " http://[::1]/b") c.pool "http://[::1]/b" := by
    have htrim : Text.trim " http://[::1]/b" = "http://[::1]/b" := by decide +kernel
    rw [← htrim]
    exact .given rfl (by decide +kernel)
  have hother : Client.Means none c.pool "pool-a" := by
    have htrim : Text.trim "pool-a" = "pool-a" := by decide +kernel
    rw [← htrim]
    exact .other (fun _ h => nomatch h) rfl (by decide +kernel)
  have hdocument : Aggregation.IsDocument
      "\x7b\"status_lists\":[\"b\",\"a\"]\x7d".toUTF8 ["b", "a"] := by
    rw [Aggregation.IsDocument]
    cbv
  obtain ⟨own, hown⟩ : ∃ own, ListSource.webUrl? "http://[::1]/b" = some own :=
    Option.isSome_iff_exists.1 (by decide +kernel)
  obtain ⟨url, -, hasked, hne, hends⟩ :=
    (pools_asked_for.1 c (some " http://[::1]/b") t).asked _ _ _ hgiven rfl rfl
  obtain ⟨url', hurl', hasked', -⟩ := (pools_asked_for.1 c none t).asked _ _ _ hother rfl rfl
  exact ⟨⟨own, url, hown, hne own hown, hasked,
      (hends.found _).2 ⟨_, rfl, hdocument, List.cons_ne_nil _ _⟩⟩,
    (pools_asked_for.1 c (some " ") t).blank " " rfl (by decide +kernel), url', hurl', hasked'⟩

end StatusList
