import Mathlib
import StatusList.Lookup.Fetching

/-!
# Interleaved computations

Computations that have nothing to do with each other may go on at the same time. All
that have asked for a URL wait together, and each answer that comes lets one of them go
on (`Answered`), in whatever order the answers come (`Interleaved`).

* `Interleaved.values_eq`: once all are over, the values are those of the computations
  carried out one after the other, in the order of the computations;
* `Interleaved.perm_asked`: no other URLs have been asked for, and each as often;
* `interleaved_run`: after any answers the others can come until all are over.
-/

namespace StatusList.Fetching

variable {α : Type} {t : Transport} {cs middle cs' : List (Fetching α)} {url : Url}
  {urls urls' : List Url}

/-- One of the computations gets the answer that it waits for. -/
inductive Answered (t : Transport) : List (Fetching α) → Url → List (Fetching α) → Prop where
  | here (url : Url) (next : Except FetchError ByteArray → Fetching α)
    (cs : List (Fetching α)) : Answered t (ask url next :: cs) url (next (t url) :: cs)
  | later (c : Fetching α) {cs cs' : List (Fetching α)} {url : Url}
    (h : Answered t cs url cs') : Answered t (c :: cs) url (c :: cs')

/-- Answers come, one at a time and to whichever computation; `urls` are the URLs that
    they are from. -/
inductive Interleaved (t : Transport) :
    List (Fetching α) → List Url → List (Fetching α) → Prop where
  | nil (cs : List (Fetching α)) : Interleaved t cs [] cs
  | cons {cs middle cs' : List (Fetching α)} {url : Url} {urls : List Url}
    (h : Answered t cs url middle) (hrest : Interleaved t middle urls cs') :
    Interleaved t cs (url :: urls) cs'

/-! ## What an answer leaves as it is -/

/-- An answer changes no value that a computation will have. -/
theorem Answered.map_run (h : Answered t cs url cs') : cs'.map (run t) = cs.map (run t) := by
  induction h with
  | here => rfl
  | later c _ ih => rw [List.map_cons, ih, List.map_cons]

/-- What is still to be asked for is what was, but for the URL of the answer. -/
theorem Answered.perm_asked (h : Answered t cs url cs') :
    (cs.flatMap (asked t)).Perm (url :: cs'.flatMap (asked t)) := by
  induction h with
  | here => exact .refl _
  | later c _ ih =>
    rw [List.flatMap_cons, List.flatMap_cons]
    exact (ih.append_left _).trans List.perm_middle

theorem Interleaved.map_run (h : Interleaved t cs urls cs') :
    cs'.map (run t) = cs.map (run t) := by
  induction h with
  | nil => rfl
  | cons h _ ih => rw [ih, h.map_run]

theorem Interleaved.perm_append (h : Interleaved t cs urls cs') :
    (cs.flatMap (asked t)).Perm (urls ++ cs'.flatMap (asked t)) := by
  induction h with
  | nil => exact .refl _
  | cons h _ ih => exact h.perm_asked.trans (ih.cons _)

/-! ## When all are over -/

/-- The values do not depend on the order of the answers. -/
theorem Interleaved.values_eq {values : List α} (h : Interleaved t cs urls (values.map done)) :
    values = cs.map (run t) := by
  rw [← h.map_run, List.map_map]
  exact (List.map_id values).symm

/-- Every computation has asked for its own URLs, those of others or not. -/
theorem Interleaved.perm_asked {values : List α}
    (h : Interleaved t cs urls (values.map done)) : urls.Perm (cs.flatMap (asked t)) := by
  have hover : (values.map done).flatMap (asked t) = [] := by
    rw [List.flatMap_map]
    exact List.flatMap_eq_nil_iff.2 fun _ _ => rfl
  have hperm := h.perm_append
  rw [hover, List.append_nil] at hperm
  exact hperm.symm

/-! ## One after the other -/

theorem Interleaved.trans (h : Interleaved t cs urls middle)
    (h' : Interleaved t middle urls' cs') : Interleaved t cs (urls ++ urls') cs' := by
  induction h with
  | nil => exact h'
  | cons hfirst _ ih => exact .cons hfirst (ih h')

theorem Interleaved.later (c : Fetching α) (h : Interleaved t cs urls cs') :
    Interleaved t (c :: cs) urls (c :: cs') := by
  induction h with
  | nil => exact .nil _
  | cons hfirst _ ih => exact .cons (.later c hfirst) ih

/-- The first computation may get all its answers before the others get any. -/
theorem interleaved_first (c : Fetching α) (cs : List (Fetching α)) :
    Interleaved t (c :: cs) (c.asked t) (done (c.run t) :: cs) := by
  induction c with
  | done value => exact .nil _
  | ask url next ih => exact .cons (.here url next cs) (ih (t url))

/-- Computations may be carried out one after the other. In particular, all can come to
    their ends, whatever has been answered before. -/
theorem interleaved_run (cs : List (Fetching α)) :
    Interleaved t cs (cs.flatMap (asked t)) ((cs.map (run t)).map done) := by
  induction cs with
  | nil => exact .nil _
  | cons c cs ih => exact (interleaved_first c cs).trans (ih.later _)

end StatusList.Fetching
