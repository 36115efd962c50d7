import StatusList.Json.Value

/-!
# Outcomes

A lookup ends in one of three ways: something was *found*, there was *nothing*
to be found, or the state of affairs is *invalid* and nothing can be said.
-/

namespace StatusList

/-- How a lookup ends. -/
inductive Outcome (α : Type) where
  | found (value : α)
  | notFound
  | invalid
  deriving DecidableEq, Repr, Inhabited

namespace Outcome

variable {α β : Type}

/-- A value, unless it counts as nothing. -/
def foundUnless (isNothing : α → Bool) (value : α) : Outcome α :=
  if isNothing value then notFound else found value

/-- The outcome with another value. -/
def map (f : α → β) : Outcome α → Outcome β
  | found value => found (f value)
  | notFound => notFound
  | invalid => invalid

/-- The value that was found. -/
def value? : Outcome α → Option α
  | found value => some value
  | _ => none

/-- Whether a value was found. -/
def isFound : Outcome α → Bool
  | found _ => true
  | _ => false

/-- The outcome of an attempt: what fails is invalid, and a value counts unless
    it is nothing. -/
def ofExcept {ε : Type} (isNothing : α → Bool) : Except ε α → Outcome α
  | .ok value => foundUnless isNothing value
  | .error _ => invalid

/-- The JSON of an outcome, given that of its value. -/
def toJson (f : α → Json) : Outcome α → Json
  | found value => .object [("Found", f value)]
  | notFound => "NotFound"
  | invalid => "InvalidState"

theorem value?_eq_some_iff {o : Outcome α} {value : α} :
    o.value? = some value ↔ o = found value := by
  cases o <;> simp [value?]

end Outcome

end StatusList
