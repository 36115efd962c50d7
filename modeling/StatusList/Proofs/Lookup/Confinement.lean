import StatusList.Proofs.Lookup.Ends
import StatusList.Proofs.Url.Schemes
import StatusList.Proofs.Url.Segments

/-!
# Where lookups go

An identifier is put behind the path of a base, and the URL that is asked for has the
scheme, the authority, the query and the fragment of the base whatever the identifier is
(`Below`). Nothing in the identifier can end its segment or stand for a step.

The path should also go on from that of the base (`GoesOnFrom`). That is so, unless the
identifier leads away from it, which takes two dots with tabs or line breaks between them
or a base with two slashes for its path (`lookups_go_on_iff`). No such identifier is refused,
so that a base does not confine what is asked for (`hidden_dots_go_back`).
-/

namespace StatusList

open Url

namespace Url

/-- The segments of a path, if it has a root. -/
def Path.segments? : Path → Option (List (List Char))
  | rootless _ => none
  | rooted segments => some segments
  | guarded segments => some segments

/-- A URL is at the same place as a base, and its path begins with that of the base, where
    one empty segment at the end does not count. -/
structure GoesOnFrom (base url : Url) : Prop where
  scheme : url.scheme = base.scheme
  authority : url.authority = base.authority
  path : ∃ segments path, base.path.segments? = some segments ∧ url.path.segments? = some path ∧
    stem segments <+: path

/-- A URL has a text behind the segments of a base. -/
structure Below (base : Url) (segments : List (List Char)) (text : List Char) (url : Url) :
    Prop where
  scheme : url.scheme = base.scheme
  authority : url.authority = base.authority
  query : url.query = base.query
  fragment : url.fragment = base.fragment
  /-- What was not in the path of the base is one name. -/
  names : ∃ path, url.path.segments? = some path ∧
    ∀ segment ∈ path, segment ∈ segments ∨ IsName segment
  /-- The path goes on from that of the base just if the text does not lead away from it. -/
  goesOn_iff : GoesOnFrom base url ↔ ¬LeadsAway segments text

/-- A text can be put behind a path that has segments, and only the path changes. -/
theorem exists_appendSegment? {base : Url} {segments : List (List Char)}
    (hroot : base.path.segments? = some segments) (text : String) :
    ∃ path : Path, base.appendSegment? text = some { base with path } ∧
      path.segments? = some (extend base.kind segments text.toList) := by
  rw [appendSegment?]
  cases hpath : base.path with
  | rootless rest => simp [hpath, Path.segments?] at hroot
  | rooted rest =>
    obtain rfl : rest = segments := by simpa [hpath, Path.segments?] using hroot
    exact ⟨_, rfl, rfl⟩
  | guarded rest =>
    obtain rfl : rest = segments := by simpa [hpath, Path.segments?] using hroot
    exact ⟨_, rfl, rfl⟩

/-- A URL goes on from a base just if its segments go on from the stem of those of the base. -/
theorem goesOnFrom_iff {base : Url} {path : Path} {segments rest : List (List Char)}
    (hroot : base.path.segments? = some segments) (hpath : path.segments? = some rest) :
    GoesOnFrom base { base with path } ↔ stem segments <+: rest := by
  constructor
  · rintro ⟨-, -, segments', rest', hroot', hpath', hprefix⟩
    rw [hroot, Option.some.injEq] at hroot'
    rw [hpath, Option.some.injEq] at hpath'
    rwa [hroot', hpath']
  · exact fun hprefix => ⟨rfl, rfl, segments, rest, hroot, hpath, hprefix⟩

/-- What a text put behind a base over HTTP gives is below that base. -/
theorem exists_below {base : Url} {segments : List (List Char)} (hhttp : base.isHttp = true)
    (hroot : base.path.segments? = some segments) (text : String) :
    ∃ url, urlBelow base text = .ok url ∧ Below base segments text.toList url := by
  obtain ⟨path, happend, hpath⟩ := exists_appendSegment? hroot text
  rw [kind_of_isHttp hhttp] at hpath
  have hnames : ∀ segment ∈ extend .special segments text.toList,
      segment ∈ segments ∨ IsName segment := fun segment => mem_or_isName_of_mem_extend
  have hgoesOn := (goesOnFrom_iff hroot hpath).trans (stem_isPrefix_extend_iff (by decide))
  refine ⟨{ base with path }, ?_, rfl, rfl, rfl, rfl, ⟨_, hpath, hnames⟩, hgoesOn⟩
  rw [urlBelow, happend]

end Url

/-- Every identifier that is put behind a base, be it of a status list or of a pool, is asked
    for below that base, and outside its path just if the identifier leads away from it. -/
theorem lookups_go_on_iff {base : Url} {segments : List (List Char)} (hhttp : base.isHttp = true)
    (hroot : base.path.segments? = some segments) (t : Transport) :
    (∀ (verifier : Option Verifier) (reference : String),
      ListSource.webUrl? (Text.trim reference) = none →
      ∃ url, Below base segments (Text.trim reference).toList url ∧
        ((⟨some base, verifier⟩ : ListSource).tryFetch reference).asked t = [url] ∧
        ((⟨some base, verifier⟩ : ListSource).fetch reference).asked t = [url]) ∧
    ∀ pool : String,
      ∃ url, Below base segments pool.toList url ∧
        ((⟨some base⟩ : PoolSource).tryFetch pool).asked t = [url] ∧
        ((⟨some base⟩ : PoolSource).fetch pool).asked t = [url] := by
  constructor
  · intro verifier reference hreference
    obtain ⟨url, hurl, hbelow⟩ := exists_below hhttp hroot (Text.trim reference)
    have hresolve : (⟨some base, verifier⟩ : ListSource).resolve reference = .ok url := by
      rw [← hurl, ListSource.resolve, hreference]
    exact ⟨url, hbelow, ListSource.asked_of_resolve hresolve t⟩
  · intro pool
    obtain ⟨url, hurl, hbelow⟩ := exists_below hhttp hroot pool
    have hasked := (PoolSource.looksUp base pool t).asked
    rw [hurl] at hasked
    exact ⟨url, hbelow, hasked⟩

/-! ## Two bases -/

/-- A base for status lists. -/
def listsBase : Url :=
  ⟨"https", some ⟨[], [], .domain "base.example".toList, none⟩,
    .rooted ["v1".toList, "lists".toList], none, none⟩

/-- A base that has nothing but two slashes for its path. -/
def slashesBase : Url :=
  ⟨"https", some ⟨[], [], .domain "base.example".toList, none⟩, .rooted [[], []], none, none⟩

/-- Dots and a slash do not lead away from a base. -/
theorem lookups_go_on_from_lists :
    listsBase.isHttp = true ∧
    listsBase.path.segments? = some ["v1".toList, "lists".toList] ∧
    ListSource.webUrl? (Text.trim "../7") = none ∧
    ∃ url, GoesOnFrom listsBase url ∧
      ((⟨some listsBase, none⟩ : ListSource).fetch "../7").asked (fun _ => .ok .empty) = [url] := by
  have hhttp : listsBase.isHttp = true := by decide
  have hreference : ListSource.webUrl? (Text.trim "../7") = none := by decide +kernel
  refine ⟨hhttp, rfl, hreference, ?_⟩
  obtain ⟨url, hbelow, -, hasked⟩ :=
    (lookups_go_on_iff hhttp rfl fun _ => .ok .empty).1 none "../7" hreference
  exact ⟨url, hbelow.goesOn_iff.2 (by decide +kernel), hasked⟩

/-- Two dots with a tab between them go back from a base, and what is put behind two slashes
    takes the place of one of them. -/
theorem hidden_dots_go_back :
    (listsBase.isHttp = true ∧ ListSource.webUrl? (Text.trim ".\t.") = none ∧
      ∃ url, url.text = "https://base.example/v1/" ∧ ¬GoesOnFrom listsBase url ∧
        ((⟨some listsBase, none⟩ : ListSource).fetch ".\t.").asked (fun _ => .ok .empty) =
          [url]) ∧
    slashesBase.isHttp = true ∧ ListSource.webUrl? (Text.trim "7") = none ∧
      ∃ url, url.text = "https://base.example/7" ∧ ¬GoesOnFrom slashesBase url ∧
        ((⟨some slashesBase, none⟩ : ListSource).fetch "7").asked (fun _ => .ok .empty) =
          [url] := by
  refine ⟨⟨by decide, by decide +kernel, { listsBase with path := .rooted ["v1".toList, []] },
      by decide +kernel, ?_, (ListSource.asked_of_resolve ?_ _).2⟩,
    by decide, by decide +kernel, { slashesBase with path := .rooted ["7".toList] },
      by decide +kernel, ?_, (ListSource.asked_of_resolve ?_ _).2⟩
  · rw [goesOnFrom_iff rfl rfl]
    decide
  · decide +kernel
  · rw [goesOnFrom_iff rfl rfl]
    decide
  · decide +kernel

end StatusList
