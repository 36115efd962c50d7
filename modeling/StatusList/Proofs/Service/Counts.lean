import StatusList.Proofs.Service.Queries

/-!
# Counts

The service counts by the beginning of the path of a request and by the status of the response
to it (`run_serve`). What is counted after a sequence of requests are therefore the statuses of
some of the responses, in no particular order (`countsAfter_eq`), and the counters account for
just these (`counts_account`).

A status does not tell where it comes from. That there is nothing to be found is told by the
status of a path that leads nowhere as well, and that something is wrong by that of a request
which names two identifiers. So the counters tell of the queries and of the requests that have
gone astray among the paths that count, one with the other, and of the queries alone just if
there are no such requests (`counts_tell_of_queries_iff`).
-/

namespace StatusList.Service

/-- A request, with the client that answers it and what is published at the time. -/
structure Exchange where
  request : Request
  client : Client
  transport : Transport

namespace Exchange

variable (e : Exchange)

/-- The status of the response. -/
def status : Nat := ((answer e.client e.request).run e.transport).status

/-- The path begins with that of lists, wherever it leads from there. -/
def IsCounted : Prop := Route.listPath.toList <+: e.request.path.toList

instance : Decidable e.IsCounted := inferInstanceAs (Decidable (_ <+: _))

end Exchange

/-- The counts after one more request has been served. -/
def next (counts : Counts) (e : Exchange) : Counts :=
  ((serve e.client counts e.request).run e.transport).2

/-- The counts after requests have been served one after another. -/
def countsAfter (served : List Exchange) : Counts := served.foldl next .zero

/-- Those that count. -/
def counted (served : List Exchange) : List Exchange := served.filter fun e => e.IsCounted

/-- The statuses of the responses to those that count. -/
def statuses (served : List Exchange) : List Nat := (counted served).map Exchange.status

/-- How many statuses there are, and how many of each kind. -/
def Counts.ofStatuses (statuses : List Nat) : Counts where
  lookups := statuses.length
  found := statuses.count 200
  notFound := statuses.count 404
  invalid := statuses.count 400

/-- What counters of 64 bits show of numbers. -/
def Counts.shown (c : Counts) : Counts where
  lookups := c.lookups % UInt64.size
  found := c.found % UInt64.size
  notFound := c.notFound % UInt64.size
  invalid := c.invalid % UInt64.size

variable {served : List Exchange} {e : Exchange}

theorem counted_cons_of_pos (h : e.IsCounted) : counted (e :: served) = e :: counted served :=
  List.filter_cons_of_pos (decide_eq_true h)

theorem counted_cons_of_neg (h : ¬e.IsCounted) : counted (e :: served) = counted served :=
  List.filter_cons_of_neg (mt of_decide_eq_true h)

/-! ## Counting -/

/-- Counting has no part in the response. -/
theorem run_serve (c : Client) (counts : Counts) (r : Request) (t : Transport) :
    (serve c counts r).run t = ((answer c r).run t,
      if Route.listPath.toList <+: r.path.toList then
        counts.record ((answer c r).run t).status
      else counts) := by
  rw [serve, Fetching.run_bind, Fetching.run_pure]
  exact congrArg _ (if_congr isCounted_iff rfl rfl)

theorem next_eq (counts : Counts) (e : Exchange) :
    next counts e = if e.IsCounted then counts.record e.status else counts := by
  rw [next, run_serve]
  rfl

/-- What is counted are the statuses. -/
theorem countsAfter_eq (served : List Exchange) :
    countsAfter served = (statuses served).foldl Counts.record .zero := by
  have hnext : next = fun counts e => if e.IsCounted then counts.record e.status else counts :=
    funext₂ next_eq
  rw [countsAfter, statuses, counted, List.foldl_map, List.foldl_filter, hnext]
  simp only [decide_eq_true_eq]

namespace Counts

variable {c : Counts} {xs ys : List Nat}

/-- The counters show the numbers after one more status, if they have shown them before. -/
theorem record_shown (c : Counts) (status : Nat) :
    c.shown.record status = shown {
      lookups := c.lookups + 1
      found := c.found + [status].count 200
      notFound := c.notFound + [status].count 404
      invalid := c.invalid + [status].count 400 } := by
  have htick : ∀ n, tick (n % UInt64.size) = (n + 1) % UInt64.size := fun n =>
    Nat.mod_add_mod n UInt64.size 1
  have hkind : ∀ n kind, (if status = kind then (n + 1) % UInt64.size else n % UInt64.size) =
      (n + [status].count kind) % UInt64.size := by
    intro n kind
    by_cases h : status = kind
    · rw [if_pos h, h, List.count_singleton_self]
    · rw [if_neg h, List.count_singleton, beq_false_of_ne h]
      rfl
  simp only [record, shown, htick, hkind]

/-- The counters go on to show the numbers, from whatever they begin with. -/
theorem foldl_record_shown (statuses : List Nat) (c : Counts) :
    statuses.foldl record c.shown = shown {
      lookups := c.lookups + statuses.length
      found := c.found + statuses.count 200
      notFound := c.notFound + statuses.count 404
      invalid := c.invalid + statuses.count 400 } := by
  induction statuses generalizing c with
  | nil => rfl
  | cons status statuses ih =>
    have hcount : ∀ kind, (status :: statuses).count kind =
        [status].count kind + statuses.count kind := fun kind =>
      (List.count_append : ([status] ++ statuses).count kind = _)
    rw [List.foldl_cons, record_shown, ih]
    simp only [hcount, List.length_cons, Nat.add_assoc, Nat.add_comm 1]

theorem foldl_record_zero (statuses : List Nat) :
    statuses.foldl record zero = (ofStatuses statuses).shown := by
  have hshown := foldl_record_shown statuses zero
  simp only [zero, Nat.zero_add] at hshown
  exact hshown

theorem ofStatuses_eq_of_perm (h : xs.Perm ys) : ofStatuses xs = ofStatuses ys := by
  simp only [ofStatuses, h.length_eq, h.count_eq]

/-- Of fewer statuses than a counter has numbers, the counters show how many there are. -/
theorem shown_ofStatuses (h : xs.length < UInt64.size) :
    (ofStatuses xs).shown = ofStatuses xs := by
  have hkind : ∀ kind, xs.count kind % UInt64.size = xs.count kind := fun kind =>
    Nat.mod_eq_of_lt (List.count_le_length.trans_lt h)
  simp only [ofStatuses, shown, hkind, Nat.mod_eq_of_lt h]

/-- A status that is of none of the three kinds is counted among all, but not by its kind. -/
theorem lookups_ofStatuses (xs : List Nat) :
    (ofStatuses xs).lookups = (ofStatuses xs).found + (ofStatuses xs).notFound +
      (ofStatuses xs).invalid + xs.countP (· ∉ [200, 404, 400]) := by
  simp only [ofStatuses]
  induction xs with
  | nil => rfl
  | cons x xs ih =>
    simp only [List.length_cons, List.count_cons, List.countP_cons, ih, beq_iff_eq,
      List.mem_cons, List.not_mem_nil, or_false, decide_eq_true_eq]
    split_ifs <;> omega

end Counts

/-! ## Accounts -/

/-- What the counters tell after a sequence of requests. -/
structure AccountsFor (served : List Exchange) : Prop where
  /-- They show the number of the requests that count, and of those answered with one of three
      statuses. -/
  shown : countsAfter served = (Counts.ofStatuses (statuses served)).shown
  /-- They show it as it is, unless there have been more than a counter can show. -/
  exact : (statuses served).length < UInt64.size →
    countsAfter served = .ofStatuses (statuses served)
  /-- What is left over has been answered with another status. -/
  leftOver : (statuses served).length < UInt64.size →
    (countsAfter served).lookups = (countsAfter served).found + (countsAfter served).notFound +
      (countsAfter served).invalid + (statuses served).countP (· ∉ [200, 404, 400])
  /-- A request that does not count leaves them as they are. -/
  uncounted : ∀ e : Exchange, ¬e.IsCounted → countsAfter (served ++ [e]) = countsAfter served
  /-- So does a request for what the service tells of itself. -/
  elsewhere : ∀ (e : Exchange), ∀ route ∈ [Route.description, .liveness, .readiness],
    Route.ofPath? e.request.path = some route → countsAfter (served ++ [e]) = countsAfter served
  /-- The order of the requests makes no difference. -/
  perm : ∀ others : List Exchange, others.Perm served → countsAfter others = countsAfter served

theorem countsAfter_append (served later : List Exchange) :
    countsAfter (served ++ later) = later.foldl next (countsAfter served) :=
  List.foldl_append

theorem countsAfter_eq_shown (served : List Exchange) :
    countsAfter served = (Counts.ofStatuses (statuses served)).shown := by
  rw [countsAfter_eq, Counts.foldl_record_zero]

theorem countsAfter_eq_ofStatuses (h : (statuses served).length < UInt64.size) :
    countsAfter served = .ofStatuses (statuses served) := by
  rw [countsAfter_eq_shown, Counts.shown_ofStatuses h]

theorem countsAfter_append_uncounted (h : ¬e.IsCounted) :
    countsAfter (served ++ [e]) = countsAfter served := by
  rw [countsAfter_append, List.foldl_cons, List.foldl_nil, next_eq, if_neg h]

/-- The counters account for any sequence of requests, and go on from there. -/
theorem counts_account (served later : List Exchange) :
    AccountsFor served ∧ countsAfter (served ++ later) = later.foldl next (countsAfter served) := by
  refine ⟨⟨countsAfter_eq_shown served, countsAfter_eq_ofStatuses, fun h => ?_,
    fun e => countsAfter_append_uncounted, fun e route hmem hroute => ?_, fun others h => ?_⟩,
    countsAfter_append served later⟩
  · rw [countsAfter_eq_ofStatuses h]
    exact Counts.lookups_ofStatuses _
  · have hlookup : ∀ route ∈ [Route.description, .liveness, .readiness],
        route.query?.isSome = false := by decide
    have huncounted := (isCounted_eq_of_route hroute).trans (hlookup route hmem)
    exact countsAfter_append_uncounted fun hcounted =>
      Bool.false_ne_true (huncounted.symm.trans (isCounted_iff.2 hcounted))
  · have hperm : (statuses others).Perm (statuses served) := (h.filter _).map _
    rw [countsAfter_eq_shown, countsAfter_eq_shown, Counts.ofStatuses_eq_of_perm hperm]

/-! ## What is counted -/

/-- How the query ends that a request comes to. -/
def Exchange.ending? (e : Exchange) : Option (Outcome Unit) :=
  match e.request.asksFor with
  | .ok q => some (q.ending e.client e.transport)
  | .error _ => none

/-- Why a request comes to no query. -/
def Exchange.stray? (e : Exchange) : Option Stray :=
  match e.request.asksFor with
  | .ok _ => none
  | .error s => some s

/-- How the queries end that requests come to. -/
def endings (served : List Exchange) : List (Outcome Unit) := served.filterMap Exchange.ending?

/-- Why those of the requests that count come to no query which come to none. -/
def strays (served : List Exchange) : List Stray :=
  (counted served).filterMap Exchange.stray?

theorem Exchange.status_of_query {q : Query} (h : e.request.asksFor = .ok q) :
    e.status = Query.statusOf (q.ending e.client e.transport) := by
  rw [status, answer_of_query h, Query.status_respond]

theorem Exchange.status_of_stray {s : Stray} (h : e.request.asksFor = .error s) :
    e.status = s.status := by
  obtain ⟨response, hstatus, hanswer⟩ := answer_of_stray h
  rw [status, hanswer, Fetching.run_pure, hstatus]

theorem Query.statusOf_injective : Function.Injective statusOf := by
  rintro (_ | _ | _) (_ | _ | _) h <;> first | rfl | simp [statusOf] at h

theorem Stray.status_injective : Function.Injective status := by
  rintro (_ | _ | _ | _) (_ | _ | _ | _) h <;> first | rfl | simp [status] at h

/-- The statuses that are counted are those of the queries and those of the strays. -/
theorem statuses_perm (served : List Exchange) :
    (statuses served).Perm
      ((endings served).map Query.statusOf ++ (strays served).map Stray.status) := by
  simp only [statuses, endings, strays]
  induction served with
  | nil => rfl
  | cons e served ih =>
    cases hasks : e.request.asksFor with
    | ok q =>
      have hending : e.ending? = some (q.ending e.client e.transport) := by
        rw [Exchange.ending?, hasks]
      have hstray : e.stray? = none := by rw [Exchange.stray?, hasks]
      have hcounted : e.IsCounted := isCounted_iff.1 (isCounted_of_query hasks)
      rw [counted_cons_of_pos hcounted, List.filterMap_cons_some hending,
        List.filterMap_cons_none hstray, List.map_cons, List.map_cons,
        Exchange.status_of_query hasks]
      exact ih.cons _
    | error s =>
      have hending : e.ending? = none := by rw [Exchange.ending?, hasks]
      have hstray : e.stray? = some s := by rw [Exchange.stray?, hasks]
      rw [List.filterMap_cons_none hending]
      by_cases hcounted : e.IsCounted
      · rw [counted_cons_of_pos hcounted, List.filterMap_cons_some hstray,
          List.map_cons, List.map_cons, Exchange.status_of_stray hasks]
        exact (ih.cons _).trans List.perm_middle.symm
      · rw [counted_cons_of_neg hcounted]
        exact ih

theorem elsewhere_not_mem_strays (served : List Exchange) : Stray.elsewhere ∉ strays served := by
  intro hmem
  obtain ⟨e, he, hstray⟩ := List.mem_filterMap.1 hmem
  have hcounted : e.IsCounted := of_decide_eq_true (List.mem_filter.1 he).2
  rw [Exchange.stray?] at hstray
  split at hstray
  · cases hstray
  · next s hasks =>
    obtain rfl := Option.some.inj hstray
    exact Bool.false_ne_true ((isCounted_of_elsewhere hasks).symm.trans (isCounted_iff.2 hcounted))

/-- The numbers of the queries and of the strays, each with those whose responses have the
    same status. -/
theorem ofStatuses_statuses (served : List Exchange) :
    Counts.ofStatuses (statuses served) = {
      lookups := (endings served).length + (strays served).length
      found := (endings served).count (.found ())
      notFound := (endings served).count .notFound + (strays served).count .nowhere
      invalid := (endings served).count .invalid + (strays served).count .repeated } := by
  have hending : ∀ o, ((endings served).map Query.statusOf).count (Query.statusOf o) =
      (endings served).count o :=
    List.count_map_of_injective _ _ Query.statusOf_injective
  have hstray : ∀ s, ((strays served).map Stray.status).count (Stray.status s) =
      (strays served).count s :=
    List.count_map_of_injective _ _ Stray.status_injective
  have hfound : ((endings served).map Query.statusOf).count 200 +
      ((strays served).map Stray.status).count 200 = (endings served).count (.found ()) := by
    have helsewhere := List.count_eq_zero_of_not_mem (elsewhere_not_mem_strays served)
    exact congrArg₂ _ (hending (.found ())) ((hstray .elsewhere).trans helsewhere)
  have hnotFound : ((endings served).map Query.statusOf).count 404 +
      ((strays served).map Stray.status).count 404 =
        (endings served).count .notFound + (strays served).count .nowhere :=
    congrArg₂ _ (hending .notFound) (hstray .nowhere)
  have hinvalid : ((endings served).map Query.statusOf).count 400 +
      ((strays served).map Stray.status).count 400 =
        (endings served).count .invalid + (strays served).count .repeated :=
    congrArg₂ _ (hending .invalid) (hstray .repeated)
  rw [Counts.ofStatuses_eq_of_perm (statuses_perm served), Counts.ofStatuses]
  simp only [List.length_append, List.length_map, List.count_append, hfound, hnotFound, hinvalid]

/-- What the counters tell of queries after a sequence of requests. -/
structure TellsOfQueries (served : List Exchange) : Prop where
  /-- Queries are what the clients are asked for. -/
  query : ∀ e ∈ served, ∀ q, e.request.asksFor = .ok q →
    answer e.client e.request = q.respond e.client
  /-- For the sake of a request that comes to no query a client is asked for nothing. -/
  stray : ∀ e ∈ served, ∀ s, e.request.asksFor = .error s →
    ∃ response : Response, ∀ c, answer c e.request = pure response
  /-- The counters show the number of the queries and of the strays that count, each with those
      whose responses have the same status. -/
  shown : countsAfter served = Counts.shown {
    lookups := (endings served).length + (strays served).length
    found := (endings served).count (.found ())
    notFound := (endings served).count .notFound + (strays served).count .nowhere
    invalid := (endings served).count .invalid + (strays served).count .repeated }
  /-- They show the number of the queries, and of those with each ending, just if there are no
      strays that count. -/
  iff : (endings served).length + (strays served).length < UInt64.size →
    (countsAfter served = {
      lookups := (endings served).length
      found := (endings served).count (.found ())
      notFound := (endings served).count .notFound
      invalid := (endings served).count .invalid } ↔ strays served = [])

/-- The counters tell of the queries and of the requests among the paths that count which come
    to no query, and of the queries alone just if there are no such requests. -/
theorem counts_tell_of_queries_iff (served : List Exchange) : TellsOfQueries served := by
  refine ⟨fun e _ q hasks => answer_of_query hasks e.client, fun e _ s hasks => ?_, ?_,
    fun hlt => ?_⟩
  · obtain ⟨response, -, hanswer⟩ := answer_of_stray hasks
    exact ⟨response, hanswer⟩
  · rw [countsAfter_eq_shown, ofStatuses_statuses]
  · have hlength : (statuses served).length =
        (endings served).length + (strays served).length :=
      congrArg Counts.lookups (ofStatuses_statuses served)
    rw [countsAfter_eq_ofStatuses (hlength ▸ hlt), ofStatuses_statuses]
    constructor
    · intro h
      have hlookups := congrArg Counts.lookups h
      exact List.length_eq_zero_iff.1 (Nat.add_eq_left.1 hlookups)
    · intro h
      rw [h]
      rfl

/-- A request that is put to a client which can look up nothing. -/
def put (method path : String) (query : Option String) : Exchange :=
  ⟨⟨method, path, query⟩, ⟨⟨none, none⟩, ⟨none⟩, none, false⟩, fun url =>
    .error (.unreachable url "nobody is there")⟩

/-- A path that leads nowhere, a method that does not fit and a second identifier are each
    counted, though nothing is looked up. -/
theorem strays_are_counted :
    (endings [put "GET" "/ui/status-list/zzz" none] = [] ∧
      countsAfter [put "GET" "/ui/status-list/zzz" none] = ⟨1, 0, 1, 0⟩) ∧
    (endings [put "POST" "/ui/status-list" none] = [] ∧
      countsAfter [put "POST" "/ui/status-list" none] = ⟨1, 0, 0, 0⟩) ∧
    endings [put "GET" "/ui/status-list" (some "id=1&id=2")] = [] ∧
      countsAfter [put "GET" "/ui/status-list" (some "id=1&id=2")] = ⟨1, 0, 0, 1⟩ := by
  decide +kernel

end StatusList.Service
