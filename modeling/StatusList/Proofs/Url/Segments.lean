import StatusList.Proofs.Url.Encoding

/-!
# Paths with a segment put behind them

A text that is put behind a path as one segment is encoded, so it becomes one name without
any mark in it that would end the segment, and no step (`IsName`, `mem_or_isName_of_mem_extend`).
What it is put behind is the path without one empty segment at its end, its *stem*.

There are two ways in which the path still does not go on from its stem (`LeadsAway`,
`stem_isPrefix_extend_iff`). A text of two dots adds nothing, but tabs and line breaks are left
out only after that has been looked at, so that two dots with such a character among them
do go back. And where the path is nothing but two slashes, one of its two empty segments is
taken off and the text takes the place of the other.
-/

namespace StatusList.Url

/-- A segment is one name: no character in it ends a segment or a path, and it is no step. -/
structure IsName (segment : List Char) : Prop where
  noMark : ∀ c ∈ segment, c ∉ ['/', '\\', '?', '#']
  noStep : staysHere segment = false ∧ goesBack segment = false

/-- Segments without one empty segment at their end. -/
def stem (segments : List (List Char)) : List (List Char) :=
  if segments.getLast? = some [] then segments.dropLast else segments

/-- Put behind segments, a text leads away from their stem: it is two dots with tabs or line
    breaks among them, and there is a segment to go back by, which is neither empty nor a
    drive; or the segments are two empty ones, and the text is more than dots. -/
def LeadsAway (segments : List (List Char)) (text : List Char) : Prop :=
  if segments = [[], []] then counted text ∉ [[], ['.'], ['.', '.']]
  else text ≠ ['.', '.'] ∧ counted text = ['.', '.'] ∧
    ∃ last ∈ (stem segments).getLast?, last ≠ [] ∧ isDrive last = false

instance (segments : List (List Char)) (text : List Char) : Decidable (LeadsAway segments text) :=
  inferInstanceAs (Decidable (if segments = [[], []] then _ else _))

variable {kind : Kind} {segments : List (List Char)} {text : List Char}

/-! ## One segment more -/

/-- Where there are no drives, a piece goes back, stays or is a name. -/
theorem follow_eq (hkind : kind ≠ .file) {set : EncodeSet} (hpercent : set '%' = true)
    (hdot : set '.' = false) :
    follow kind set true segments text =
      if counted text = ['.', '.'] then back segments ++ [[]]
      else segments ++ [if counted text = ['.'] then [] else encode set (counted text)] := by
  simp only [follow, hkind, false_and, if_false, if_true, goesBack_encode hpercent hdot,
    staysHere_encode hpercent hdot]
  split
  · rfl
  · split <;> rfl

/-- What a text is put behind: nothing at all, where there is only an empty segment. -/
def front (segments : List (List Char)) : List (List Char) :=
  if withoutTrailing segments = [[]] then [] else withoutTrailing segments

theorem extend_eq (hkind : kind ≠ .file) (htext : text ≠ ['.'] ∧ text ≠ ['.', '.']) :
    extend kind segments text =
      if counted text = ['.', '.'] then back (front segments) ++ [[]]
      else front segments ++
        [if counted text = ['.'] then [] else encode (wholeSegment kind) (counted text)] := by
  have hpercent : wholeSegment kind '%' = true := by cases kind <;> decide
  have hdot : wholeSegment kind '.' = false := by cases kind <;> decide
  rw [← follow_eq hkind hpercent hdot, extend, if_neg (not_or.2 htext), settle, if_neg hkind]
  rfl

theorem stem_append_nil (init : List (List Char)) : stem (init ++ [[]]) = init := by
  simp [stem]

theorem stem_of_getLast?_ne (h : segments.getLast? ≠ some []) : stem segments = segments :=
  if_neg h

/-- Unless there are two empty segments and no more, a text is put behind the stem. -/
theorem front_eq_stem (h : segments ≠ [[], []]) : front segments = stem segments := by
  -- An empty segment at the end is taken off only if there are others. Where it is the only
  -- one it counts as nothing, which is the stem again; but what is left of two of them counts
  -- as nothing too, and there the stem is one empty segment.
  by_cases hlast : segments.getLast? = some []
  · obtain ⟨init, rfl⟩ : ∃ init, segments = init ++ [[]] :=
      ⟨_, (List.dropLast_append_getLast? _ hlast).symm⟩
    rw [stem_append_nil]
    by_cases hinit : init = []
    · rw [hinit]
      rfl
    · have hlength : 2 ≤ (init ++ [[]]).length := by
        have hpos := List.length_pos_iff.2 hinit
        rw [List.length_append, List.length_singleton]
        omega
      have htrailing : withoutTrailing (init ++ [[]]) = init := by
        rw [withoutTrailing, if_pos ⟨hlength, hlast⟩, List.dropLast_concat]
      have hne : init ≠ [[]] := fun hne => h (by rw [hne]; rfl)
      rw [front, htrailing, if_neg hne]
  · have hne : segments ≠ [[]] := fun hne => hlast (by rw [hne]; rfl)
    have htrailing : withoutTrailing segments = segments := if_neg fun h => hlast h.2
    rw [stem_of_getLast?_ne hlast, front, htrailing, if_neg hne]

theorem stem_isPrefix_withoutTrailing (segments : List (List Char)) :
    stem segments <+: withoutTrailing segments := by
  rw [stem, withoutTrailing]
  split
  · split
    · exact List.prefix_rfl
    · exact List.dropLast_prefix segments
  · next hlast => rw [if_neg fun h => hlast h.2]

/-- Going back leaves the last segment where it is only if that is empty or a drive. -/
theorem isPrefix_back_iff (segments : List (List Char)) :
    segments <+: back segments ++ [[]] ↔
      ¬∃ last ∈ segments.getLast?, last ≠ [] ∧ isDrive last = false := by
  obtain rfl | ⟨init, last, rfl⟩ := List.eq_nil_or_concat' segments
  · simp
  · cases hdrive : isDrive last with
    | true => simp [back, hdrive]
    | false => simp [back, hdrive, List.prefix_append_right_inj]

/-- Behind two empty segments and no more there is only room for what adds nothing. -/
theorem stem_isPrefix_extend_pair (hkind : kind ≠ .file)
    (htext : text ≠ ['.'] ∧ text ≠ ['.', '.']) :
    stem [[], []] <+: extend kind [[], []] text ↔ counted text ∈ [[], ['.'], ['.', '.']] := by
  have hstem : stem [[], []] = [[]] := rfl
  have hfront : front [[], []] = [] := rfl
  have hname : ∀ segment : List Char, [[]] <+: [segment] ↔ segment = [] := fun segment => by
    simp [List.cons_prefix_cons, eq_comm]
  rw [extend_eq hkind htext, hstem, hfront, List.nil_append]
  by_cases hback : counted text = ['.', '.']
  · simp [hback, back]
  · rw [if_neg hback, hname]
    by_cases hstay : counted text = ['.']
    · simp [hstay]
    · rw [if_neg hstay]
      constructor
      · intro h
        simp [eq_nil_of_encode h]
      · intro h
        have hnil : counted text = [] := by simpa [hback, hstay] using h
        rw [hnil]
        rfl

/-- A path with a text put behind it as one segment goes on from its stem, unless the text
    leads away. -/
theorem stem_isPrefix_extend_iff (hkind : kind ≠ .file) :
    stem segments <+: extend kind segments text ↔ ¬LeadsAway segments text := by
  -- A text of dots alone is looked at before tabs and line breaks are left out, and again after
  -- that. Only the second time do two dots go back.
  by_cases htext : text = ['.'] ∨ text = ['.', '.']
  · have hextend : extend kind segments text = withoutTrailing segments := if_pos htext
    have hstays : ¬LeadsAway segments text := by
      rw [LeadsAway]
      rcases htext with rfl | rfl
      · split <;> simp [counted, isDropped]
      · split <;> simp [counted, isDropped]
    simp only [hextend, stem_isPrefix_withoutTrailing, hstays, not_false_eq_true]
  · rw [not_or] at htext
    by_cases hpair : segments = [[], []]
    · rw [hpair, stem_isPrefix_extend_pair hkind htext, LeadsAway, if_pos rfl, not_not]
    · rw [extend_eq hkind htext, front_eq_stem hpair, LeadsAway, if_neg hpair]
      by_cases hback : counted text = ['.', '.']
      · simp only [hback, if_true, isPrefix_back_iff, htext.2, ne_eq, not_false_eq_true, true_and]
      · simp [hback]

/-! ## What is in a path -/

theorem isName_nil : IsName [] := ⟨by simp, by decide⟩

/-- What is encoded as a segment is one name, unless it is a step. -/
theorem isName_encode (htext : text ≠ ['.'] ∧ text ≠ ['.', '.']) :
    IsName (encode EncodeSet.specialSegment text) := by
  have hmark : ∀ c ∈ ['/', '\\', '?', '#'],
      EncodeSet.specialSegment c = true ∧ c ≠ '%' ∧ c.isAlphanum = false := by
    simp only [List.forall_mem_cons, List.not_mem_nil, false_implies, implies_true, and_true]
    refine ⟨?_, ?_, ?_, ?_⟩ <;> decide
  refine ⟨fun c hmem hc => ?_, ?_, ?_⟩
  · obtain ⟨hset, hpercent, hdigit⟩ := hmark c hc
    exact not_mem_encode hset hpercent hdigit text hmem
  · rw [Bool.eq_false_iff, ne_eq, staysHere_encode (by decide) (by decide)]
    exact htext.1
  · rw [Bool.eq_false_iff, ne_eq, goesBack_encode (by decide) (by decide)]
    exact htext.2

theorem withoutTrailing_subset (segments : List (List Char)) :
    withoutTrailing segments ⊆ segments := by
  rw [withoutTrailing]
  split
  · exact (List.dropLast_sublist segments).subset
  · exact List.Subset.refl segments

theorem front_subset (segments : List (List Char)) : front segments ⊆ segments := by
  rw [front]
  split
  · exact List.nil_subset segments
  · exact withoutTrailing_subset segments

theorem back_subset (segments : List (List Char)) : back segments ⊆ segments := by
  rw [back]
  split
  · exact List.Subset.refl segments
  · exact (List.dropLast_sublist segments).subset

/-- What is in a path with a text put behind it was there before, or it is one name. -/
theorem mem_or_isName_of_mem_extend {segment : List Char}
    (h : segment ∈ extend .special segments text) : segment ∈ segments ∨ IsName segment := by
  by_cases htext : text = ['.'] ∨ text = ['.', '.']
  · rw [extend, if_pos htext] at h
    exact .inl (withoutTrailing_subset segments h)
  · rw [extend_eq (by decide) (not_or.1 htext)] at h
    split at h
    · rcases List.mem_append.1 h with h | h
      · exact .inl (front_subset segments (back_subset _ h))
      · exact .inr (List.mem_singleton.1 h ▸ isName_nil)
    · next hback =>
      rcases List.mem_append.1 h with h | h
      · exact .inl (front_subset segments h)
      · rw [List.mem_singleton.1 h]
        split
        · exact .inr isName_nil
        · next hstay => exact .inr (isName_encode ⟨hstay, hback⟩)

end StatusList.Url
