import StatusList.Proofs.Basic
import StatusList.Service.Server

/-!
# Queries

A request comes to a *query* if the client is asked for its sake: it is to read what one of
the two paths of lookups leads to, and names one identifier at most. Then the response tells
how the query ends, and nothing else is asked of the client (`answer_of_query`). Any other
request goes *astray*. The client has no part in the response to it, and why it has gone
astray settles the status (`answer_of_stray`).

To count as a lookup a request need not come to a query. It counts by the beginning of its
path, so that those count that lead nowhere from there, those that are refused for their
method and those that name two identifiers (`isCounted_of_query`, `isCounted_eq_of_route`).
-/

namespace StatusList.Service

/-- What is asked of a client for the sake of a request. -/
inductive Query where
  /-- The status list of an identifier. -/
  | list (id : Option String)
  /-- The lists of a pool. -/
  | pool (id : Option String)
  deriving DecidableEq, Repr, Inhabited

/-- Why a request comes to no query. -/
inductive Stray where
  /-- The path leads nowhere. -/
  | nowhere
  /-- The path leads to what the service tells of itself. -/
  | elsewhere
  /-- The method does not fit. -/
  | refused
  /-- More than one identifier is named. -/
  | repeated
  deriving DecidableEq, Repr, Inhabited

/-- The status of the response to a request that has gone astray. -/
def Stray.status : Stray → Nat
  | nowhere => 404
  | elsewhere => 200
  | refused => 405
  | repeated => 400

namespace Query

variable (c : Client) (t : Transport)

/-- The response to a query. -/
def respond : Query → Fetching Response
  | list id => do
    return .ofOutcome "status list" (fun d => (ListResponse.ofDocument d).toJson) (← c.list id)
  | pool id => do
    return .ofOutcome "status list aggregation" Aggregation.toJson (← c.aggregation id)

/-- The URLs that are asked for in a query. -/
def asked : Query → List Url
  | list id => (c.list id).asked t
  | pool id => (c.aggregation id).asked t

/-- How a query ends, whatever it finds. -/
def ending : Query → Outcome Unit
  | list id => ((c.list id).run t).map fun _ => ()
  | pool id => ((c.aggregation id).run t).map fun _ => ()

/-- The status of the response to a query that ends in some way. -/
def statusOf : Outcome Unit → Nat
  | .found () => 200
  | .notFound => 404
  | .invalid => 400

theorem status_ofOutcome {α : Type} (resource : String) (toJson : α → Json) (o : Outcome α) :
    (Response.ofOutcome resource toJson o).status = statusOf (o.map fun _ => ()) := by
  cases o <;> rfl

theorem asked_respond (q : Query) : (q.respond c).asked t = q.asked c t := by
  cases q <;> rw [respond, Fetching.asked_bind, Fetching.asked_pure, List.append_nil] <;> rfl

theorem status_respond (q : Query) : ((q.respond c).run t).status = statusOf (q.ending c t) := by
  cases q <;> rw [respond, Fetching.run_bind, Fetching.run_pure, status_ofOutcome] <;> rfl

end Query

/-! ## Requests -/

/-- The query for each identifier, if the route leads to a lookup. -/
def Route.query? : Route → Option (Option String → Query)
  | list => some .list
  | aggregation => some .pool
  | description | liveness | readiness => none

namespace Request

/-- The identifier that a request names, if it does not name several. -/
def identifier (r : Request) : Except Stray (Option String) :=
  match r.valuesOf "id" with
  | [] => .ok none
  | [id] => .ok (some id)
  | _ => .error .repeated

/-- The query that a request comes to, or why it comes to none. -/
def asksFor (r : Request) : Except Stray Query :=
  match Route.ofPath? r.path with
  | none => .error .nowhere
  | some route =>
    if r.method = "GET" ∨ r.method = "HEAD" then
      match route.query? with
      | some query => r.identifier.map query
      | none => .error .elsewhere
    else .error .refused

end Request

variable {r : Request} {q : Query} {s : Stray} {route : Route} {query : Option String → Query}

/-- What a request comes to, and how it is responded to by each client. -/
inductive Course (r : Request) : Except Stray Query → (Client → Fetching Response) → Prop where
  | query {route : Route} (hroute : Route.ofPath? r.path = some route)
    (hlookup : route.query?.isSome) (q : Query) : Course r (.ok q) q.respond
  | nowhere (hroute : Route.ofPath? r.path = none) :
    Course r (.error .nowhere) fun _ => pure .nowhere
  | elsewhere {route : Route} (hroute : Route.ofPath? r.path = some route)
    (hlookup : route.query? = none) (content : Content) :
    Course r (.error .elsewhere) fun _ => pure (.ok content)
  | refused {route : Route} (hroute : Route.ofPath? r.path = some route)
    (hmethod : ¬(r.method = "GET" ∨ r.method = "HEAD")) :
    Course r (.error .refused) fun _ => pure .notAllowed
  | repeated {route : Route} (hroute : Route.ofPath? r.path = some route)
    (hlookup : route.query?.isSome) : Course r (.error .repeated) fun _ => pure (.repeated "id")

/-- A request that may name an identifier comes to the query for it, unless it names several. -/
theorem course_withIdentifier (hroute : Route.ofPath? r.path = some route)
    (hlookup : route.query?.isSome) (query : Option String → Query) :
    Course r (r.identifier.map query)
      fun c => withIdentifier r fun id => (query id).respond c := by
  simp only [Request.identifier, withIdentifier]
  rcases r.valuesOf "id" with _ | ⟨id, _ | ⟨_, _⟩⟩
  · exact .query hroute hlookup (query none)
  · exact .query hroute hlookup (query (some id))
  · exact .repeated hroute hlookup

/-- Every request takes its course. -/
theorem course_answer (r : Request) : Course r r.asksFor fun c => answer c r := by
  simp only [Request.asksFor, answer]
  cases hroute : Route.ofPath? r.path with
  | none => exact .nowhere hroute
  | some route =>
    by_cases hmethod : r.method = "GET" ∨ r.method = "HEAD"
    · simp only [if_pos hmethod]
      cases route with
      | list => exact course_withIdentifier hroute rfl .list
      | aggregation => exact course_withIdentifier hroute rfl .pool
      | description | liveness | readiness => exact .elsewhere hroute rfl _
    · simp only [if_neg hmethod]
      exact .refused hroute hmethod

theorem exists_course {asked : Except Stray Query} (h : r.asksFor = asked) :
    ∃ respond, Course r asked respond ∧ ∀ c, answer c r = respond c :=
  h ▸ ⟨_, course_answer r, fun _ => rfl⟩

/-- The client is asked for the sake of a request that comes to a query, and for nothing but
    the query. -/
theorem answer_of_query (h : r.asksFor = .ok q) (c : Client) : answer c r = q.respond c := by
  obtain ⟨respond, hcourse, hanswer⟩ := exists_course h
  cases hcourse
  exact hanswer c

/-- The client has no part in the response to a request that has gone astray. -/
theorem answer_of_stray (h : r.asksFor = .error s) :
    ∃ response : Response, response.status = s.status ∧ ∀ c, answer c r = pure response := by
  obtain ⟨respond, hcourse, hanswer⟩ := exists_course h
  cases hcourse with
  | nowhere => exact ⟨_, rfl, hanswer⟩
  | elsewhere _ _ content => exact ⟨_, rfl, hanswer⟩
  | refused => exact ⟨_, rfl, hanswer⟩
  | repeated => exact ⟨_, rfl, hanswer⟩

/-- To get what a path of lookups leads to is to come to the query for it. -/
theorem Request.asksFor_of_getting (hroute : Route.ofPath? r.path = some route)
    (hquery : route.query? = some query) (hmethod : r.method = "GET") :
    r.asksFor = r.identifier.map query := by
  simp only [asksFor, hroute, hquery]
  exact if_pos (.inl hmethod)

/-! ## What counts -/

theorem isCounted_iff : isCounted r = true ↔ Route.listPath.toList <+: r.path.toList :=
  List.isPrefixOf_iff_prefix

/-- Of the paths that lead somewhere those of lookups count, and no others. -/
theorem isCounted_eq_of_route (h : Route.ofPath? r.path = some route) :
    isCounted r = route.query?.isSome := by
  rw [isCounted]
  unfold Route.ofPath? at h
  split_ifs at h with hpath hpath hpath hpath hpath
  all_goals
    obtain rfl := Option.some.inj h
    rw [hpath]
    decide

theorem isCounted_of_query (h : r.asksFor = .ok q) : isCounted r = true := by
  obtain ⟨respond, hcourse, -⟩ := exists_course h
  cases hcourse with
  | query hroute hlookup => rw [isCounted_eq_of_route hroute, hlookup]

theorem isCounted_of_elsewhere (h : r.asksFor = .error .elsewhere) : isCounted r = false := by
  obtain ⟨respond, hcourse, -⟩ := exists_course h
  cases hcourse with
  | elsewhere hroute hlookup => rw [isCounted_eq_of_route hroute, hlookup, Option.isSome_none]

/-- A request that counts and is told of nothing wrong has come to a query that finds
    something. -/
theorem exists_query_of_ok {c : Client} {t : Transport} (hcounted : isCounted r = true)
    (hok : ((answer c r).run t).status = 200) :
    ∃ q : Query, r.asksFor = .ok q ∧ q.ending c t = .found () := by
  cases hasks : r.asksFor with
  | ok q =>
    rw [answer_of_query hasks, Query.status_respond] at hok
    refine ⟨q, rfl, ?_⟩
    cases hending : q.ending c t with
    | found => rfl
    | notFound | invalid => simp [hending, Query.statusOf] at hok
  | error s =>
    obtain ⟨response, hstatus, hanswer⟩ := answer_of_stray hasks
    rw [hanswer, Fetching.run_pure, hstatus] at hok
    cases s with
    | elsewhere => exact absurd hcounted (by rw [isCounted_of_elsewhere hasks]; decide)
    | nowhere | refused | repeated => simp [Stray.status] at hok

/-- A request to get what a path of lookups leads to has come to the query for it, if it is told
    of nothing wrong. -/
theorem exists_query_of_getting {c : Client} {t : Transport}
    (hroute : Route.ofPath? r.path = some route) (hquery : route.query? = some query)
    (hmethod : r.method = "GET") (hok : ((answer c r).run t).status = 200) :
    ∃ id, answer c r = (query id).respond c ∧ (query id).ending c t = .found () := by
  have hcounted : isCounted r = true := by rw [isCounted_eq_of_route hroute, hquery]; rfl
  obtain ⟨q, hasks, hending⟩ := exists_query_of_ok hcounted hok
  have hanswer := answer_of_query hasks c
  rw [Request.asksFor_of_getting hroute hquery hmethod] at hasks
  cases hid : r.identifier with
  | error s =>
    rw [hid] at hasks
    cases hasks
  | ok id =>
    rw [hid] at hasks
    cases hasks
    exact ⟨id, hanswer, hending⟩

end StatusList.Service
