import StatusList.Proofs.Basic
import StatusList.Lookup.Source

/-!
# How lookups end

A lookup takes three steps: there has to be a URL, something has to be found at it, and
that has to be read. No URL is asked for but the one of the first step, and what goes
wrong is told of the first step that does (`Attempted`). The lookup as a whole ends in one
of three ways: whatever goes wrong is invalid, and what is read is found, unless there is
nothing in it (`LooksUp`).

* `lookups_ask_once`: status lists and the lists of pools are looked up in this way.
-/

namespace StatusList

variable {α ε₁ ε₂ : Type} {t : Transport} {url : Except ε₁ Url} {unresolved : ε₁ → LookupError}
  {reader : ByteArray → Except ε₂ α} {unread : ε₂ → LookupError}

/-! ## Attempts -/

/-- What comes of an attempt to read what is found at a URL. -/
inductive Attempted (t : Transport) (url : Except ε₁ Url) (unresolved : ε₁ → LookupError)
    (reader : ByteArray → Except ε₂ α) (unread : ε₂ → LookupError) :
    Except LookupError α → Prop where
  /-- There is no URL. -/
  | unresolved {cause : ε₁} (hurl : url = .error cause) :
    Attempted t url unresolved reader unread (.error (unresolved cause))
  /-- Nothing is found at the URL. -/
  | notFetched {target : Url} {cause : FetchError} (hurl : url = .ok target)
    (hfound : t target = .error cause) :
    Attempted t url unresolved reader unread (.error (.notFetched cause))
  /-- What is found is not read. -/
  | unread {target : Url} {body : ByteArray} {cause : ε₂} (hurl : url = .ok target)
    (hfound : t target = .ok body) (hread : reader body = .error cause) :
    Attempted t url unresolved reader unread (.error (unread cause))
  /-- What is found is read. -/
  | read {target : Url} {body : ByteArray} {a : α} (hurl : url = .ok target)
    (hfound : t target = .ok body) (hread : reader body = .ok a) :
    Attempted t url unresolved reader unread (.ok a)

/-- Something comes of every attempt. -/
theorem attempted_run_lookup :
    Attempted t url unresolved reader unread ((lookup (url.mapError unresolved) fun body =>
      (reader body).mapError unread).run t) := by
  cases hurl : url with
  | error cause => exact .unresolved rfl
  | ok target =>
    cases hfound : t target with
    | error cause =>
      simp only [lookup, Except.mapError, Fetching.run_bind, Fetching.run_fetch, hfound]
      exact .notFetched rfl hfound
    | ok body =>
      simp only [lookup, Except.mapError, Fetching.run_bind, Fetching.run_fetch, hfound]
      cases hread : reader body with
      | error cause => exact .unread rfl hfound hread
      | ok a => exact .read rfl hfound hread

/-- Only one thing comes of an attempt. -/
theorem Attempted.unique {r r' : Except LookupError α}
    (h : Attempted t url unresolved reader unread r)
    (h' : Attempted t url unresolved reader unread r') : r = r' := by
  cases h <;> cases h' <;> simp_all

theorem run_lookup_eq_iff {r : Except LookupError α} :
    (lookup (url.mapError unresolved) fun body => (reader body).mapError unread).run t = r ↔
      Attempted t url unresolved reader unread r :=
  ⟨fun h => h ▸ attempted_run_lookup, fun h => attempted_run_lookup.unique h⟩

/-- No URL is asked for but the one that there is. -/
theorem asked_lookup :
    (lookup (url.mapError unresolved) fun body => (reader body).mapError unread).asked t =
      url.toOption.toList := by
  cases url with
  | error cause => rfl
  | ok target =>
    simp only [lookup, Except.mapError, Fetching.asked_bind, Fetching.asked_fetch]
    cases (Fetching.fetch target).run t <;> rfl

/-! ## Ends -/

namespace Outcome

variable {ε : Type} {isNothing : α → Bool} {attempt : Except ε α}

theorem map_eq_found_iff {β : Type} {f : α → β} {o : Outcome α} {b : β} :
    o.map f = found b ↔ ∃ a, o = found a ∧ f a = b := by
  cases o <;> simp [map]

theorem ofExcept_eq_found_iff {a : α} :
    ofExcept isNothing attempt = found a ↔ attempt = .ok a ∧ isNothing a = false := by
  cases attempt with
  | error e => simp [ofExcept]
  | ok value =>
    simp only [ofExcept, foundUnless, Except.ok.injEq]
    split
    · next h => exact ⟨nofun, fun ⟨heq, hsome⟩ => by simp [← heq, h] at hsome⟩
    · next h =>
      rw [found.injEq]
      exact ⟨fun heq => ⟨heq, by rw [← heq, ← Bool.not_eq_true]; exact h⟩, And.left⟩

theorem ofExcept_eq_notFound_iff :
    ofExcept isNothing attempt = notFound ↔ ∃ a, attempt = .ok a ∧ isNothing a = true := by
  cases attempt <;> simp [ofExcept, foundUnless]

theorem ofExcept_eq_invalid_iff :
    ofExcept isNothing attempt = invalid ↔ ∃ e, attempt = .error e := by
  cases attempt with
  | error e => simp [ofExcept]
  | ok value =>
    simp only [ofExcept, foundUnless, reduceCtorEq, exists_false, iff_false]
    split <;> simp

end Outcome

/-- With what is found at each URL, `attempt` is to read what is found at `url`, and `whole`
    tells only how that ends: `size` is how much there is in what is read. -/
structure LooksUp (t : Transport) (url : Except ε₁ Url) (unresolved : ε₁ → LookupError)
    (reader : ByteArray → Except ε₂ α) (unread : ε₂ → LookupError) (size : α → Nat)
    (attempt : Fetching (Except LookupError α)) (whole : Fetching (Outcome α)) : Prop where
  /-- The URL is asked for once, if there is one, and nothing else is. -/
  asked : attempt.asked t = url.toOption.toList ∧ whole.asked t = url.toOption.toList
  /-- What goes wrong is told of the first step that does. -/
  attempted : ∀ r, attempt.run t = r ↔ Attempted t url unresolved reader unread r
  /-- Nothing is found that has nothing in it. -/
  found : ∀ a, whole.run t = .found a ↔ attempt.run t = .ok a ∧ 0 < size a
  /-- Only what is read and has nothing in it is not found. -/
  notFound : whole.run t = .notFound ↔ ∃ a, attempt.run t = .ok a ∧ size a = 0
  /-- Whatever goes wrong is invalid. -/
  invalid : whole.run t = .invalid ↔ ∃ e, attempt.run t = .error e
  /-- Where nothing is found at the URL, whatever the code of the answer, that is invalid. -/
  notFetched : ∀ target, url = .ok target → ∀ failure, t target = .error failure →
    whole.run t = .invalid

/-- An attempt with its end is a lookup, where what has no size counts as nothing. -/
theorem looksUp_lookup {size : α → Nat} {isNothing : α → Bool}
    (hnothing : ∀ a, isNothing a = true ↔ size a = 0) :
    let attempt := lookup (url.mapError unresolved) fun body => (reader body).mapError unread
    LooksUp t url unresolved reader unread size attempt
      (do return .ofExcept isNothing (← attempt)) := by
  intro attempt
  have hsome : ∀ a, isNothing a = false ↔ 0 < size a := fun a => by
    rw [← Bool.not_eq_true, hnothing, Nat.pos_iff_ne_zero]
  have hinvalid : (do return .ofExcept isNothing (← attempt) : Fetching (Outcome α)).run t =
      .invalid ↔ ∃ e, attempt.run t = .error e := by
    rw [Fetching.run_bind, Fetching.run_pure, Outcome.ofExcept_eq_invalid_iff]
  refine ⟨⟨asked_lookup, ?_⟩, fun r => run_lookup_eq_iff, fun a => ?_, ?_, hinvalid, ?_⟩
  · rw [Fetching.asked_bind, Fetching.asked_pure, List.append_nil]
    exact asked_lookup
  · rw [Fetching.run_bind, Fetching.run_pure, Outcome.ofExcept_eq_found_iff, hsome]
  · simp only [Fetching.run_bind, Fetching.run_pure, Outcome.ofExcept_eq_notFound_iff, hnothing]
  · intro target hurl failure hfound
    exact hinvalid.2 ⟨_, run_lookup_eq_iff.2 (.notFetched hurl hfound)⟩

/-! ## Sources -/

theorem ListSource.looksUp (s : ListSource) (reference : String) (t : Transport) :
    LooksUp t (s.resolve reference) .unresolved (Document.read s.verifier) .badList
      Document.total (s.tryFetch reference) (s.fetch reference) :=
  looksUp_lookup fun d => by simp [Document.isEmpty]

/-- The URL of a reference is asked for, whatever it is. -/
theorem ListSource.asked_of_resolve {s : ListSource} {reference : String} {target : Url}
    (h : s.resolve reference = .ok target) (t : Transport) :
    (s.tryFetch reference).asked t = [target] ∧ (s.fetch reference).asked t = [target] := by
  have hasked := (s.looksUp reference t).asked
  rwa [h] at hasked

theorem PoolSource.looksUp (base : Url) (pool : String) (t : Transport) :
    LooksUp t (urlBelow base pool) .unresolved
      (fun body => Json.parse Aggregation.record.read body.data.toList) .badAggregation
      (fun a => a.uris.length) ((⟨some base⟩ : PoolSource).tryFetch pool)
      ((⟨some base⟩ : PoolSource).fetch pool) :=
  looksUp_lookup fun a => by simp [Aggregation.isEmpty]

/-- Status lists and the lists of pools are looked up in one way. Without a base for pools
    nothing is asked for. -/
theorem lookups_ask_once (t : Transport) :
    (∀ (s : ListSource) (reference : String),
      LooksUp t (s.resolve reference) .unresolved (Document.read s.verifier) .badList
        Document.total (s.tryFetch reference) (s.fetch reference)) ∧
    (∀ (base : Url) (pool : String),
      LooksUp t (urlBelow base pool) .unresolved
        (fun body => Json.parse Aggregation.record.read body.data.toList) .badAggregation
        (fun a => a.uris.length) ((⟨some base⟩ : PoolSource).tryFetch pool)
        ((⟨some base⟩ : PoolSource).fetch pool)) ∧
    ∀ pool : String,
      ((⟨none⟩ : PoolSource).tryFetch pool).asked t = [] ∧
      ((⟨none⟩ : PoolSource).fetch pool).asked t = [] ∧
      ((⟨none⟩ : PoolSource).tryFetch pool).run t = .error .noPools ∧
      ((⟨none⟩ : PoolSource).fetch pool).run t = .invalid :=
  ⟨fun s reference => s.looksUp reference t, fun base pool => PoolSource.looksUp base pool t,
    fun _ => ⟨rfl, rfl, rfl, rfl⟩⟩

end StatusList
