import StatusList.Proofs.Lookup.Confinement

/-!
# One segment more

A text that is put behind the path of a base over HTTP becomes exactly one segment behind its
stem, from which the text can be had again, and nothing else in the base changes (`Appended`).
So different texts give different URLs, and a slash at the end of the base makes no difference
(`TakesSegments`).

* `segments_append_losslessly`: all of this holds of texts that are no steps and of which every
  character counts, for every base over HTTP but one that has two slashes for its path, while
  nothing can be put behind a base without a root.
-/

namespace StatusList

open Url

namespace Url

/-- A text is no step, and every character in it counts. -/
structure IsPlainText (text : String) : Prop where
  noStep : text ≠ "." ∧ text ≠ ".."
  counts : ∀ c ∈ text.toList, c ∉ ['\t', '\n', '\r']

/-- A URL is a base with a text behind its segments, as one segment more. -/
structure Appended (base : Url) (segments : List (List Char)) (text : String) (url : Url) :
    Prop where
  scheme : url.scheme = base.scheme
  /-- The credentials, the host and the port are those of the base. -/
  authority : url.authority = base.authority
  query : url.query = base.query
  fragment : url.fragment = base.fragment
  /-- The one segment more is a name that, decoded, is the text. -/
  path : ∃ segment, url.path = .rooted (stem segments ++ [segment]) ∧ IsName segment ∧
    Utf8.decode (decode (Utf8.encode segment)).toByteArray = .ok text

/-- Texts can be put behind the segments of a base without any loss. -/
structure TakesSegments (base : Url) (segments : List (List Char)) : Prop where
  /-- Every text becomes one segment. -/
  appended : ∀ {text}, IsPlainText text →
    ∃ url, urlBelow base text = .ok url ∧ Appended base segments text url
  /-- Different texts give different URLs. -/
  lossless : ∀ {text text' url url'}, IsPlainText text → IsPlainText text' →
    urlBelow base text = .ok url → urlBelow base text' = .ok url' → url.text = url'.text →
    text = text'
  /-- A slash at the end of the base makes no difference. -/
  slash : segments.getLast? ≠ some [] → ∀ {text}, IsPlainText text →
    urlBelow { base with path := .rooted (segments ++ [[]]) } text = urlBelow base text

variable {base : Url} {segments : List (List Char)} {text : String}

/-! ## Paths -/

theorem IsPlainText.toList_ne (h : IsPlainText text) :
    text.toList ≠ ['.'] ∧ text.toList ≠ ['.', '.'] :=
  ⟨fun heq => h.noStep.1 (String.toList_injective heq),
    fun heq => h.noStep.2 (String.toList_injective heq)⟩

/-- A path has a plain text behind its stem, encoded. -/
theorem IsPlainText.extend_eq (h : IsPlainText text) (hpair : segments ≠ [[], []]) :
    extend .special segments text.toList =
      stem segments ++ [encode EncodeSet.specialSegment text.toList] := by
  have hcounted : counted text.toList = text.toList := by
    refine List.filter_eq_self.2 fun c hc => ?_
    have hdropped := h.counts c hc
    simpa [isDropped] using hdropped
  rw [Url.extend_eq (by decide) h.toList_ne, hcounted, if_neg h.toList_ne.2,
    if_neg h.toList_ne.1, front_eq_stem hpair]
  rfl

/-- The URL of a plain text below a base over HTTP. -/
theorem IsPlainText.urlBelow_eq (h : IsPlainText text) (hhttp : base.isHttp = true)
    (hroot : base.path = .rooted segments) (hpair : segments ≠ [[], []]) :
    urlBelow base text = .ok { base with
      path := .rooted (stem segments ++ [encode EncodeSet.specialSegment text.toList]) } := by
  rw [urlBelow, appendSegment?, hroot, ← h.extend_eq hpair, kind_of_isHttp hhttp]

/-- A text that is encoded as a segment can be had again. -/
theorem decode_encode_specialSegment (text : String) :
    Utf8.decode (decode (Utf8.encode (encode EncodeSet.specialSegment text.toList))).toByteArray =
      .ok text := by
  rw [decode_encode (by decide), Utf8.decode_encode, String.ofList_toList]

/-- URLs of one text have the same last segment, if there is no other difference. -/
theorem eq_of_text_eq {init : List (List Char)} {segment segment' : List Char}
    (h : ({ base with path := .rooted (init ++ [segment]) } : Url).text =
      ({ base with path := .rooted (init ++ [segment']) } : Url).text) : segment = segment' := by
  -- What stands between the scheme and the path does not look at the segments.
  have hauthority : ∀ segments, ({ base with path := .rooted segments } : Url).authorityText =
      ({ base with path := .rooted init } : Url).authorityText := fun segments => by
    rw [authorityText, authorityText]
    cases base.authority <;> rfl
  have hlist := congrArg String.toList h
  rw [text, text, hauthority (init ++ [segment]), hauthority (init ++ [segment'])] at hlist
  simpa [target, Path.text] using hlist

/-- Texts can be put behind every base over HTTP that is not one of two slashes. -/
theorem takesSegments_of_isHttp (hhttp : base.isHttp = true) (hroot : base.path = .rooted segments)
    (hpair : segments ≠ [[], []]) : TakesSegments base segments where
  appended {text} h := by
    refine ⟨_, h.urlBelow_eq hhttp hroot hpair, rfl, rfl, rfl, rfl, _, rfl, ?_, ?_⟩
    · exact isName_encode ⟨h.toList_ne.1, h.toList_ne.2⟩
    · exact decode_encode_specialSegment text
  lossless {text text' url url'} h h' hurl hurl' heq := by
    rw [h.urlBelow_eq hhttp hroot hpair] at hurl
    rw [h'.urlBelow_eq hhttp hroot hpair] at hurl'
    rw [← Except.ok.inj hurl, ← Except.ok.inj hurl'] at heq
    have hdecode := decode_encode_specialSegment text
    rw [eq_of_text_eq heq, decode_encode_specialSegment] at hdecode
    exact (Except.ok.inj hdecode).symm
  slash hlast {text} h := by
    have hpair' : segments ++ [[]] ≠ [[], []] := by
      intro heq
      have hempty : segments ++ [[]] = [[]] ++ [[]] := heq
      exact hlast (by rw [List.append_cancel_right hempty]; rfl)
    have hslash : urlBelow { base with path := .rooted (segments ++ [[]]) } text = _ :=
      h.urlBelow_eq hhttp rfl hpair'
    rw [hslash, h.urlBelow_eq hhttp hroot hpair, stem_append_nil, stem_of_getLast?_ne hlast]

end Url

/-- Plain texts are put behind every base over HTTP without any loss, unless its path is two
    slashes, and nothing is put behind a base without a root. -/
theorem segments_append_losslessly :
    (∀ (base : Url) (segments : List (List Char)), base.isHttp = true →
      base.path = .rooted segments → segments ≠ [[], []] → TakesSegments base segments) ∧
    (∀ (base : Url) (rest : List Char), base.path = .rootless rest →
      ∀ text, urlBelow base text = .error (.rootlessBase base)) ∧
    ∀ (text : String) (base : Url), parse? text = some base → base.isHttp = true →
      ∃ segments, base.path = .rooted segments := by
  refine ⟨fun base segments => takesSegments_of_isHttp, fun base rest hroot text => ?_,
    fun text base => exists_rooted_of_parse?⟩
  rw [urlBelow, appendSegment?, hroot]

/-- A base with a query and a fragment takes a text with marks in it. -/
theorem segments_append_before_query :
    let base := { listsBase with query := some "a=b".toList, fragment := some "c".toList }
    let segments := ["v1".toList, "lists".toList]
    let text := "../7?x=%41#\\é"
    base.isHttp = true ∧ base.path = .rooted segments ∧ segments ≠ [[], []] ∧ IsPlainText text ∧
      ∃ url, urlBelow base text = .ok url ∧ Appended base segments text url := by
  intro base segments text
  have hhttp : base.isHttp = true := by decide
  have hpair : segments ≠ [[], []] := by decide
  have hplain : IsPlainText text := ⟨by decide, by simp [text]⟩
  exact ⟨hhttp, rfl, hpair, hplain,
    (segments_append_losslessly.1 base segments hhttp rfl hpair).appended hplain⟩

end StatusList
