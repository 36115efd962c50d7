import StatusList.Url.Basic

/-!
# Fetching

What is published can only be had by asking for it. A *transport* answers with
the body that is found at a URL, or with why there is none. A computation that
asks on its way, whatever the transport, is *fetching*: either it is done, or it
asks for one URL and goes on with the answer.

* `Fetching.run`: what a computation gives with a transport;
* `Fetching.asked`: the URLs that it asks for, in order;
* `Fetching.runWith`: the same in a world where asking has an effect;
* `run_bind`, `asked_bind`: one computation after another;
* `Fetching.all`: the values of several computations, in their order.
-/

namespace StatusList

/-- Why there is no body at a URL. -/
inductive FetchError where
  /-- Nobody answers. -/
  | unreachable (url : Url) (why : String)
  /-- The answer is not one of success. -/
  | status (url : Url) (code : Nat) (body : String)
  deriving DecidableEq, Repr, Inhabited

/-- The words for a failed fetch. -/
def FetchError.message : FetchError → String
  | unreachable url why => s!"HTTP request to {url.text} failed: {why}"
  | status url code body => s!"{url.text} returned {code}: {body}"

/-- What is found at each URL. -/
abbrev Transport := Url → Except FetchError ByteArray

/-- A computation that asks for URLs on its way. -/
inductive Fetching (α : Type) where
  /-- The computation is over. -/
  | done (value : α)
  /-- The computation goes on with what is found at a URL. -/
  | ask (url : Url) (next : Except FetchError ByteArray → Fetching α)

namespace Fetching

variable {α β : Type}

/-- One computation, and another with its value. -/
def bind : Fetching α → (α → Fetching β) → Fetching β
  | done value, f => f value
  | ask url next, f => ask url fun answer => (next answer).bind f

instance : Monad Fetching where
  pure := done
  bind := bind

/-- Ask for one URL. -/
def fetch (url : Url) : Fetching (Except FetchError ByteArray) := ask url done

/-- The value of a computation. -/
def run (transport : Transport) : Fetching α → α
  | done value => value
  | ask url next => (next (transport url)).run transport

/-- The URLs that a computation asks for. -/
def asked (transport : Transport) : Fetching α → List Url
  | done _ => []
  | ask url next => url :: (next (transport url)).asked transport

/-- Carry out a computation where asking has an effect. -/
def runWith {m : Type → Type} [Monad m] (fetch : Url → m (Except FetchError ByteArray)) :
    Fetching α → m α
  | done value => pure value
  | ask url next => do (next (← fetch url)).runWith fetch

/-- The values of computations that have nothing to do with each other, in the order
    of the computations. Each is carried out after those before it. -/
def all : List (Fetching α) → Fetching (List α)
  | [] => return []
  | c :: cs => return (← c) :: (← all cs)

@[simp] theorem run_pure (t : Transport) (value : α) : (pure value : Fetching α).run t = value :=
  rfl

@[simp] theorem asked_pure (t : Transport) (value : α) : (pure value : Fetching α).asked t = [] :=
  rfl

@[simp] theorem run_fetch (t : Transport) (url : Url) : (fetch url).run t = t url := rfl

@[simp] theorem asked_fetch (t : Transport) (url : Url) : (fetch url).asked t = [url] := rfl

@[simp] theorem run_bind (t : Transport) (c : Fetching α) (f : α → Fetching β) :
    (c >>= f).run t = (f (c.run t)).run t := by
  induction c with
  | done value => rfl
  | ask url next ih => exact ih (t url)

@[simp] theorem asked_bind (t : Transport) (c : Fetching α) (f : α → Fetching β) :
    (c >>= f).asked t = c.asked t ++ (f (c.run t)).asked t := by
  induction c with
  | done value => rfl
  | ask url next ih => exact congrArg (url :: ·) (ih (t url))

@[simp] theorem run_all (t : Transport) (cs : List (Fetching α)) :
    (all cs).run t = cs.map (run t) := by
  induction cs with
  | nil => rfl
  | cons c cs ih => rw [all, run_bind, run_bind, run_pure, ih, List.map_cons]

@[simp] theorem asked_all (t : Transport) (cs : List (Fetching α)) :
    (all cs).asked t = cs.flatMap (asked t) := by
  induction cs with
  | nil => rfl
  | cons c cs ih =>
    rw [all, asked_bind, asked_bind, asked_pure, ih, List.append_nil, List.flatMap_cons]

end Fetching

end StatusList
