import Mathlib

/-!
# Steps and byte strings

What the proofs about readers have in common: a step of a reader that succeeds hands its
value on (`bind_of_ok`), a sequence of attempts succeeds if each of them does
(`bind_eq_ok_iff`), whatever a failure is called (`mapError_eq_ok_iff`), and fails with the
first that fails (`bind_eq_error_iff`), a byte string is the list of its bytes, and where a mark
is in no part of a text no search for it stops there (`all_ne_of_not_mem`).
-/

namespace StatusList

variable {σ ε ε' α β : Type}

/-- A step that succeeds hands its value and its state on. -/
theorem bind_of_ok {step : StateT σ (Except ε) α} {s s' : σ} {a : α}
    (h : step s = .ok (a, s')) (next : α → StateT σ (Except ε) β) :
    (step >>= next) s = next a s' := by
  simp only [bind, StateT.bind, h, Except.bind]

/-- A sequence of two steps that succeeds is one that succeeds and then the other. -/
theorem bind_eq_ok {step : StateT σ (Except ε) α} {next : α → StateT σ (Except ε) β} {s s' : σ}
    {b : β} (h : (step >>= next) s = .ok (b, s')) :
    ∃ a t, step s = .ok (a, t) ∧ next a t = .ok (b, s') := by
  cases hs : step s with
  | error e => simp [bind, StateT.bind, hs, Except.bind] at h
  | ok r =>
    refine ⟨r.1, r.2, rfl, ?_⟩
    simpa [bind, StateT.bind, hs, Except.bind] using h

/-- An attempt after another succeeds if the first does and then the second. -/
theorem bind_eq_ok_iff {attempt : Except ε α} {next : α → Except ε β} {b : β} :
    (attempt >>= next) = .ok b ↔ ∃ a, attempt = .ok a ∧ next a = .ok b := by
  cases attempt <;> simp [bind, Except.bind]

/-- An attempt after another fails if the first does, or the second after it. -/
theorem bind_eq_error_iff {attempt : Except ε α} {next : α → Except ε β} {e : ε} :
    (attempt >>= next) = .error e ↔
      attempt = .error e ∨ ∃ a, attempt = .ok a ∧ next a = .error e := by
  cases attempt <;> simp [bind, Except.bind]

/-- What a failure is called makes no difference to a success. -/
theorem mapError_eq_ok_iff {attempt : Except ε α} {call : ε → ε'} {a : α} :
    attempt.mapError call = .ok a ↔ attempt = .ok a := by
  cases attempt <;> simp [Except.mapError]

theorem mapError_eq_error_iff {attempt : Except ε α} {call : ε → ε'} {e' : ε'} :
    attempt.mapError call = .error e' ↔ ∃ e, attempt = .error e ∧ call e = e' := by
  cases attempt <;> simp [Except.mapError]

theorem toOption_eq_some_iff {attempt : Except ε α} {a : α} :
    attempt.toOption = some a ↔ attempt = .ok a := by
  cases attempt <;> simp [Except.toOption]

/-- An attempt behind a guard succeeds if nothing is refused and it does. -/
theorem guarded_eq_ok_iff {refused : Prop} [Decidable refused] {refusal : ε}
    {next : β → Except ε α} {attempt : Except ε α} {a : α} :
    (if refused then throw refusal >>= next else attempt) = .ok a ↔ ¬refused ∧ attempt = .ok a := by
  split
  · next h => exact iff_of_false nofun fun hnot => hnot.1 h
  · next h => exact (and_iff_right h).symm

theorem all_ne_of_not_mem {α : Type} [DecidableEq α] {mark : α} {part : List α}
    (h : mark ∉ part) : ∀ a ∈ part, (a ≠ mark : Bool) = true := by
  intro a ha
  rw [decide_eq_true_iff]
  rintro rfl
  exact h ha

@[simp] theorem toByteArray_toList (bytes : ByteArray) : bytes.data.toList.toByteArray = bytes :=
  ByteArray.ext (by rw [List.data_toByteArray])

end StatusList
