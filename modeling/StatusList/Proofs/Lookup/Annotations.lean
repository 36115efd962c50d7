import StatusList.Lookup.Annotation
import StatusList.Proofs.DocumentViews
import StatusList.Proofs.Lookup.Ends
import StatusList.Proofs.Lookup.Interleaving

/-!
# Annotations

The lookups for a presentation go on at the same time (`Annotated`). Whatever the order
in which they are answered, what comes of them is settled element by element: the
annotations are those of the elements, in the order of the elements (`annotation?`), and
each element that refers to an entry has its own URL asked for (`target?`), also where
another element has the same one. What is found at a URL matters to no element but those
that refer to it (`annotated_elementwise`).
-/

namespace StatusList

/-- What a computation gives depends on nothing but what is found at the URLs that it asks
    for. -/
theorem Fetching.run_congr {α : Type} {t t' : Transport} {c : Fetching α}
    (h : ∀ url ∈ c.asked t, t' url = t url) : c.run t' = c.run t := by
  induction c with
  | done value => rfl
  | ask url next ih =>
    obtain ⟨hurl, hrest⟩ := List.forall_mem_cons.1 h
    change (next (t' url)).run t' = (next (t url)).run t
    rw [hurl]
    exact ih _ hrest

namespace Client

variable {c : Client} {t t' : Transport} {url : Url} {urls : List Url}
  {presentation : List Json} {element : Json} {result : Option (List Annotation)}

/-! ## Elements -/

/-- The URL that an element of a presentation has asked for. -/
def target? (c : Client) (element : Json) : Option Url := do
  let (_, r) ← attested? element
  (c.lists.resolve r.uri).toOption

/-- The annotation of an element of a presentation: its number, the entry that it refers
    to and the list, if it refers to an entry and the list is found. -/
def annotation? (c : Client) (t : Transport) (element : Json) : Option Annotation := do
  let (number, r) ← attested? element
  let list ← ((c.lists.fetch r.uri).run t).value?
  return ⟨number, (c.status? r).run t, list⟩

theorem asked_fetch (r : Reference) :
    (c.lists.fetch r.uri).asked t = (c.lists.resolve r.uri).toOption.toList :=
  (c.lists.looksUp r.uri t).asked.2

theorem asked_annotateOne (number : String) (r : Reference) :
    (c.annotateOne number r).asked t = (c.lists.resolve r.uri).toOption.toList := by
  rw [annotateOne, Fetching.asked_bind, Fetching.asked_pure, List.append_nil, asked_fetch]

theorem run_status? (c : Client) (t : Transport) (r : Reference) :
    (c.status? r).run t = ((c.lists.fetch r.uri).run t).value?.bind (·.status? r.index) := by
  rw [status?, Fetching.run_bind, Fetching.run_pure]

/-- The entry in an annotation is the one that is looked up for its own sake. -/
theorem run_annotateOne (number : String) (r : Reference) :
    (c.annotateOne number r).run t =
      ((c.lists.fetch r.uri).run t).value?.map fun list =>
        ⟨number, (c.status? r).run t, list⟩ := by
  rw [annotateOne, Fetching.run_bind, Fetching.run_pure, run_status?]
  cases ((c.lists.fetch r.uri).run t).value? <;> rfl

/-- An element that refers to no entry has nothing asked for and no annotation. -/
theorem eq_none_of_attested?_eq_none (h : attested? element = none) :
    c.target? element = none ∧ c.annotation? t element = none := by
  rw [target?, annotation?, h]
  exact ⟨rfl, rfl⟩

section

variable {number : String} {r : Reference} (h : attested? element = some (number, r))
include h

theorem target?_of_attested? : c.target? element = (c.lists.resolve r.uri).toOption := by
  simp only [target?, h, Option.bind_eq_bind, Option.bind_some]

theorem annotation?_of_attested? :
    c.annotation? t element = (c.annotateOne number r).run t := by
  simp only [annotation?, h, run_annotateOne, Option.bind_eq_bind, Option.bind_some,
    Option.pure_def, Option.map_eq_bind]
  rfl

theorem asked_of_attested? :
    (c.annotateOne number r).asked t = (c.target? element).toList := by
  rw [asked_annotateOne, target?_of_attested? h]

end

/-- The lookups for a presentation give the annotations of its elements, and ask for their
    URLs. -/
theorem run_lookups (c : Client) (t : Transport) (presentation : List Json) :
    ((c.lookups presentation).map (Fetching.run t)).filterMap id =
        presentation.filterMap (c.annotation? t) ∧
      (c.lookups presentation).flatMap (Fetching.asked t) =
        presentation.filterMap c.target? := by
  induction presentation with
  | nil => exact ⟨rfl, rfl⟩
  | cons element presentation ih =>
    rw [lookups] at ih
    cases h : attested? element with
    | none =>
      obtain ⟨htarget, hannotation⟩ := eq_none_of_attested?_eq_none (c := c) (t := t) h
      rw [lookups, List.filterMap_cons_none h, List.filterMap_cons_none htarget,
        List.filterMap_cons_none hannotation]
      exact ih
    | some attested =>
      obtain ⟨number, r⟩ := attested
      have hannotation := annotation?_of_attested? (c := c) (t := t) h
      have hasked := asked_of_attested? (c := c) (t := t) h
      rw [lookups, List.filterMap_cons_some h, List.map_cons, List.map_cons, List.flatMap_cons,
        List.filterMap_cons, List.filterMap_cons, List.filterMap_cons, id_eq, hasked,
        ← hannotation, ih.1, ih.2]
      constructor
      · rfl
      · cases c.target? element <;> rfl

/-- What is in an annotation. -/
theorem annotation?_eq_some_iff {a : Annotation} :
    c.annotation? t element = some a ↔
      ∃ r, attested? element = some (a.number, r) ∧
        (c.lists.fetch r.uri).run t = .found a.list ∧ a.status = (c.status? r).run t := by
  cases h : attested? element with
  | none => simp [(eq_none_of_attested?_eq_none (c := c) (t := t) h).2]
  | some attested =>
    obtain ⟨number, r⟩ := attested
    rw [annotation?_of_attested? h, run_annotateOne, Option.map_eq_some_iff]
    simp only [Outcome.value?_eq_some_iff, Option.some.injEq, Prod.mk.injEq]
    constructor
    · rintro ⟨list, hlist, rfl⟩
      exact ⟨r, ⟨rfl, rfl⟩, hlist, by dsimp only⟩
    · rintro ⟨_, ⟨hnumber, rfl⟩, hlist, hstatus⟩
      exact ⟨a.list, hlist, by rw [hnumber, ← hstatus]⟩

/-- What is found at a URL matters to no element that does not refer to it. -/
theorem annotation?_congr (h : ∀ other, other ≠ url → t' other = t other)
    (hother : c.target? element ≠ some url) :
    c.annotation? t' element = c.annotation? t element := by
  cases hattested : attested? element with
  | none =>
    rw [(eq_none_of_attested?_eq_none hattested).2, (eq_none_of_attested?_eq_none hattested).2]
  | some attested =>
    obtain ⟨number, r⟩ := attested
    rw [annotation?_of_attested? hattested, annotation?_of_attested? hattested]
    refine Fetching.run_congr fun asked hasked => h asked ?_
    rintro rfl
    rw [asked_of_attested? hattested, Option.mem_toList] at hasked
    exact hother hasked

/-! ## Presentations -/

/-- What may come of annotating a presentation whose lookups go on at the same time: the
    URLs in the order in which they were answered, and the annotations. The values of the
    lookups are joined in the order of the lookups. -/
inductive Annotated (c : Client) (t : Transport) (presentation : List Json) :
    List Url → Option (List Annotation) → Prop where
  | off (h : c.annotates = false) : Annotated c t presentation [] none
  | on {urls : List Url} {values : List (Option Annotation)} (h : c.annotates = true)
    (hend : Fetching.Interleaved t (c.lookups presentation) urls (values.map .done)) :
    Annotated c t presentation urls (some (values.filterMap id))

/-- The lookups may be carried out one after the other. -/
theorem annotated_annotate (c : Client) (t : Transport) (presentation : List Json) :
    Annotated c t presentation ((c.annotate presentation).asked t)
      ((c.annotate presentation).run t) := by
  rw [annotate]
  split
  · next h =>
    rw [Fetching.asked_bind, Fetching.asked_pure, Fetching.asked_all, List.append_nil,
      Fetching.run_bind, Fetching.run_pure, Fetching.run_all]
    exact .on h (Fetching.interleaved_run _)
  · next h => exact .off (by simpa using h)

/-- Where nothing is annotated nothing is asked for. -/
theorem Annotated.eq_none (h : Annotated c t presentation urls result)
    (hoff : c.annotates = false) : urls = [] ∧ result = none := by
  cases h with
  | off => exact ⟨rfl, rfl⟩
  | on hon => simp [hoff] at hon

/-- The order of the answers matters to nothing but the order of the answers. -/
theorem Annotated.eq_some (h : Annotated c t presentation urls result)
    (hon : c.annotates = true) :
    urls.Perm (presentation.filterMap c.target?) ∧
      result = some (presentation.filterMap (c.annotation? t)) := by
  obtain ⟨hrun, hasked⟩ := run_lookups c t presentation
  cases h with
  | off hoff => simp [hon] at hoff
  | on _ hend =>
    rw [← hasked, ← hrun, ← hend.values_eq]
    exact ⟨hend.perm_asked, rfl⟩

/-- With what is found at each URL, a client annotates each element of a presentation for
    itself. -/
structure AnnotatesEach (c : Client) (t : Transport) : Prop where
  /-- To carry out one lookup after the other is one way to annotate. -/
  annotate : ∀ presentation, Annotated c t presentation ((c.annotate presentation).asked t)
    ((c.annotate presentation).run t)
  /-- A client that does not annotate asks for nothing. -/
  off : c.annotates = false → ∀ presentation urls result,
    Annotated c t presentation urls result → urls = [] ∧ result = none
  /-- In whatever order the lookups are answered, every element has its own URL asked for,
      and what comes of it stands at the place of the element. -/
  on : c.annotates = true → ∀ presentation urls result,
    Annotated c t presentation urls result →
      urls.Perm (presentation.filterMap c.target?) ∧
        result = some (presentation.filterMap (c.annotation? t))
  /-- Whatever has been answered, the lookups can come to their ends. -/
  ends : ∀ presentation urls cs,
    Fetching.Interleaved t (c.lookups presentation) urls cs →
      ∃ (urls' : List Url) (values : List (Option Annotation)),
        Fetching.Interleaved t cs urls' (values.map .done)
  /-- An element has an annotation just if it refers to an entry of a list that is found,
      and then that is its number, the list and the entry as it is looked up otherwise. -/
  element : ∀ element a, c.annotation? t element = some a ↔
    ∃ r, attested? element = some (a.number, r) ∧
      (c.lists.fetch r.uri).run t = .found a.list ∧ a.status = (c.status? r).run t
  /-- An index outside the list gives no entry. -/
  outside : ∀ r list, (c.lists.fetch r.uri).run t = .found list →
    ((c.status? r).run t = none ↔ list.total ≤ r.index.toNat)
  /-- Two presentations in one are annotated as each of them is. -/
  append : ∀ xs ys urls₁ urls₂ urls result₁ result₂ result,
    Annotated c t xs urls₁ result₁ → Annotated c t ys urls₂ result₂ →
      Annotated c t (xs ++ ys) urls result →
        urls.Perm (urls₁ ++ urls₂) ∧ result = do return (← result₁) ++ (← result₂)
  /-- What is found at a URL matters to no element that does not refer to it. -/
  isolated : ∀ t' url, (∀ other, other ≠ url → t' other = t other) →
    ∀ element, c.target? element ≠ some url → c.annotation? t' element = c.annotation? t element

theorem Annotated.append {xs ys : List Json} {urls₁ urls₂ : List Url}
    {result₁ result₂ : Option (List Annotation)} (h₁ : Annotated c t xs urls₁ result₁)
    (h₂ : Annotated c t ys urls₂ result₂) (h : Annotated c t (xs ++ ys) urls result) :
    urls.Perm (urls₁ ++ urls₂) ∧ result = do return (← result₁) ++ (← result₂) := by
  cases hc : c.annotates with
  | false =>
    obtain ⟨rfl, rfl⟩ := h₁.eq_none hc
    obtain ⟨rfl, rfl⟩ := h₂.eq_none hc
    obtain ⟨rfl, rfl⟩ := h.eq_none hc
    exact ⟨.refl _, rfl⟩
  | true =>
    obtain ⟨hurls₁, rfl⟩ := h₁.eq_some hc
    obtain ⟨hurls₂, rfl⟩ := h₂.eq_some hc
    obtain ⟨hurls, rfl⟩ := h.eq_some hc
    rw [List.filterMap_append] at hurls ⊢
    exact ⟨hurls.trans (hurls₁.append hurls₂).symm, rfl⟩

/-- Presentations are annotated element by element, in the order of the elements, whatever
    the order in which the lookups are answered. -/
theorem annotated_elementwise (c : Client) (t : Transport) : AnnotatesEach c t where
  annotate := annotated_annotate c t
  off hoff _ _ _ h := h.eq_none hoff
  on hon _ _ _ h := h.eq_some hon
  ends _ _ _ _ := ⟨_, _, Fetching.interleaved_run _⟩
  element _ _ := annotation?_eq_some_iff
  outside r list hlist := by
    rw [run_status?, hlist]
    exact Document.status?_eq_none_iff
  append _ _ _ _ _ _ _ _ h₁ h₂ h := h₁.append h₂ h
  isolated _ _ h _ hother := annotation?_congr h hother

end Client

end StatusList
