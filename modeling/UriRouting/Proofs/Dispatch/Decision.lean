import Mathlib
import UriRouting.Dispatch
import UriRouting.Proofs.Template.Matching
/-!
# How a request is decided

A request goes to the first route that answers it. Where no route does, a route of its own method whose
pattern matched makes it a request without a route; and else the methods of the routes that would have
answered are reported, if there are any.

* `Decides` says what the answer to a request is, in terms of the routes alone;
* `RouteTable.routesFor_eq` says that the index by method holds the routes that accept it, in their
  order;
* `RouteTable.dispatch_eq_iff` says that dispatching gives the answer, and no other;
* `Indistinct.decides` says that requests have the same answer that the routes cannot tell apart.
-/

namespace UriRouting

/-! ## The answer to a request -/

/-- The template of a route takes a request, and all rules are satisfied. -/
def Route.Takes (route : Route) (request : Request) : Prop :=
  ∃ values, route.template.extract request.subject = .matched values

/-- A route answers a request with the values of its variables. -/
structure Route.Answers (route : Route) (request : Request) (values : List (String × Value)) :
    Prop where
  /-- The route accepts the method. -/
  accepts : request.method ∈ route.methods
  /-- The pattern matches, and all rules are satisfied. -/
  extract_eq : route.template.extract request.subject = .matched values
  /-- All headers are present; the case of ASCII letters in their names does not count. -/
  headers : ∀ header ∈ route.headers.toList, ∃ given ∈ request.headers,
    given.1.toList.map Char.toLower = header.1.toList.map Char.toLower ∧ given.2 = header.2

/-- The method is one that would have been accepted: a route has it that does not accept the method of
the request, but whose template takes the request. -/
def Allows (routes : List Route) (request : Request) (method : String) : Prop :=
  ∃ route ∈ routes, request.method ∉ route.methods ∧ route.Takes request ∧ method ∈ route.methods

/-- What the answer to a request is. -/
inductive Decides (routes : List Route) (request : Request) :
    Except RequestError RouteMatch → Prop where
  /-- The first route that answers is found. -/
  | found {before after : List Route} {route : Route} {values : List (String × Value)}
      (hroutes : routes = before ++ route :: after) (hanswers : route.Answers request values)
      (hbefore : ∀ earlier ∈ before, ∀ others, ¬ earlier.Answers request others) :
      Decides routes request (.ok ⟨before.length, route, values⟩)
  /-- A route of the method matched, but none answers. -/
  | refused {route : Route} (hnone : ∀ route ∈ routes, ∀ values, ¬ route.Answers request values)
      (hroute : route ∈ routes) (haccepts : request.method ∈ route.methods)
      (hmatched : route.template.extract request.subject ≠ .unmatched) :
      Decides routes request (.error .notFound)
  /-- No route of the method matched, but there are methods that would have been accepted. -/
  | notAllowed {allowed : List String}
      (hunmatched : ∀ route ∈ routes, request.method ∈ route.methods →
        route.template.extract request.subject = .unmatched)
      (hallowed : ∀ method, method ∈ allowed ↔ Allows routes request method)
      (hsorted : allowed.Pairwise (· < ·)) (hne : allowed ≠ []) :
      Decides routes request (.error (.methodNotAllowed request.method allowed))
  /-- No route of the method matched, and no method would have been accepted. -/
  | missing
      (hunmatched : ∀ route ∈ routes, request.method ∈ route.methods →
        route.template.extract request.subject = .unmatched)
      (hnone : ∀ method, ¬ Allows routes request method) :
      Decides routes request (.error .notFound)

/-! ## Judging a route -/

namespace Route

variable {route : Route} {request : Request}

theorem accepts_iff {method : String} : route.accepts method = true ↔ method ∈ route.methods :=
  List.contains_iff_mem

theorem headersPresent_iff {headers : List (String × String)} :
    route.headersPresent headers = true ↔ ∀ header ∈ route.headers.toList, ∃ given ∈ headers,
      given.1.toList.map Char.toLower = header.1.toList.map Char.toLower ∧ given.2 = header.2 := by
  simp [headersPresent, sameHeaderName]

/-- A route answers a request if it accepts the method and judges that it is to be accepted. -/
theorem answers_iff {values : List (String × Value)} :
    route.Answers request values
      ↔ request.method ∈ route.methods ∧ route.judge request = .accepted values := by
  have hjudge : route.judge request = .accepted values
      ↔ route.template.extract request.subject = .matched values
        ∧ route.headersPresent request.headers = true := by
    unfold judge
    cases route.template.extract request.subject with
    | unmatched => simp
    | rejected name slug => simp
    | matched given => by_cases hheaders : route.headersPresent request.headers <;> simp [hheaders]
  rw [hjudge, headersPresent_iff]
  exact ⟨fun h => ⟨h.accepts, h.extract_eq, h.headers⟩, fun h => ⟨h.1, h.2.1, h.2.2⟩⟩

/-- A request that is not accepted is refused if and only if the pattern matched. -/
theorem isRefusal_judge (h : ∀ values, route.judge request ≠ .accepted values) :
    (route.judge request).isRefusal = true
      ↔ route.template.extract request.subject ≠ .unmatched := by
  rw [judge] at h ⊢
  cases hextract : route.template.extract request.subject with
  | unmatched => simp [Verdict.isRefusal]
  | rejected name slug => simp [Verdict.isRefusal]
  | matched values =>
    by_cases hheaders : route.headersPresent request.headers = true
    · simp [hextract, hheaders] at h
    · simp [Verdict.isRefusal, hheaders]

end Route

/-! ## The index by method -/

namespace RouteTable

theorem getD_addMethod (place : Nat) (index : Std.HashMap String (List Nat)) (added method : String) :
    (addMethod place index added).getD method []
      = index.getD method [] ++ List.replicate ([added].count method) place := by
  rw [addMethod, Std.HashMap.getD_insert]
  by_cases h : added = method
  · simp [h]
  · simp [h]

/-- A route adds its place as often as it has the method. -/
theorem getD_foldl_addMethod (place : Nat) (methods : List String)
    (index : Std.HashMap String (List Nat)) (method : String) :
    (methods.foldl (addMethod place) index).getD method []
      = index.getD method [] ++ List.replicate (methods.count method) place := by
  induction methods generalizing index with
  | nil => simp
  | cons added methods ih =>
    rw [List.foldl_cons, ih, getD_addMethod, List.append_assoc, List.replicate_append_replicate,
      ← List.count_append, List.singleton_append]

/-- The places of a method are those of the routes that have it, in their order. -/
theorem getD_indexMethods (routes : List Route) (place : Nat)
    (index : Std.HashMap String (List Nat)) (method : String) :
    (indexMethods index place routes).getD method []
      = index.getD method [] ++ (routes.zipIdx place).flatMap fun (route, place) =>
          List.replicate (route.methods.count method) place := by
  induction routes generalizing index place with
  | nil => simp [indexMethods]
  | cons route routes ih =>
    rw [indexMethods, ih, getD_foldl_addMethod, List.zipIdx_cons, List.flatMap_cons,
      List.append_assoc]

variable {routes : List Route} {table : RouteTable}

/-- The candidates for a method are the routes that have it, in their order, each as often as it has
it. -/
theorem routesFor_eq (h : ofRoutes routes = .ok table) (method : String) :
    table.routesFor method = routes.zipIdx.flatMap fun (route, place) =>
      List.replicate (route.methods.count method) (place, route) := by
  obtain ⟨hroutes, hindex⟩ := ofRoutes_eq_ok h
  have hplaces : table.placesFor method = routes.zipIdx.flatMap fun (route, place) =>
      List.replicate (route.methods.count method) place := by
    rw [placesFor, hindex, getD_indexMethods]
    simp
  rw [routesFor, hplaces, hroutes, List.filterMap_flatMap]
  apply List.flatMap_congr
  rintro ⟨route, place⟩ hentry
  have hplace : routes[place]? = some route := by
    simpa using List.mem_zipIdx_iff_getElem?.1 hentry
  simp [hplace]

theorem exists_ofRoutes_singleton (route : Route) : ∃ table, ofRoutes [route] = .ok table := by
  cases hname : route.name <;> simp [ofRoutes, indexNames, hname, Except.map]

theorem mem_routesFor_iff (h : ofRoutes routes = .ok table) {method : String} {place : Nat}
    {route : Route} :
    (place, route) ∈ table.routesFor method ↔ routes[place]? = some route ∧ method ∈ route.methods := by
  rw [routesFor_eq h, List.mem_flatMap]
  constructor
  · rintro ⟨⟨other, place'⟩, hentry, hmem⟩
    obtain ⟨hcount, heq⟩ := List.mem_replicate.1 hmem
    cases heq
    exact ⟨List.mem_zipIdx_iff_getElem?.1 hentry, List.count_pos_iff.1 (Nat.pos_of_ne_zero hcount)⟩
  · rintro ⟨hplace, hmethod⟩
    refine ⟨(route, place), List.mem_zipIdx_iff_getElem?.2 hplace, List.mem_replicate.2 ⟨?_, rfl⟩⟩
    exact Nat.ne_of_gt (List.count_pos_iff.2 hmethod)

/-! ## Trying candidates -/

/-- The match of a candidate, if it is to be accepted. -/
def answer? (request : Request) (candidate : Nat × Route) : Option RouteMatch :=
  (candidate.2.judge request).values?.map fun values => ⟨candidate.1, candidate.2, values⟩

theorem answer?_eq_some_iff {request : Request} {place : Nat} {route : Route} {found : RouteMatch} :
    answer? request (place, route) = some found
      ↔ ∃ values, route.judge request = .accepted values ∧ found = ⟨place, route, values⟩ := by
  unfold answer?
  cases route.judge request <;> simp [Verdict.values?, eq_comm]

theorem answer?_eq_none_iff {request : Request} {place : Nat} {route : Route} :
    answer? request (place, route) = none
      ↔ ∀ values, route.judge request ≠ .accepted values := by
  unfold answer?
  cases route.judge request <;> simp [Verdict.values?]

/-- The match among the attempts is the first match of a candidate. -/
theorem findSome?_tryInOrder (request : Request) (candidates : List (Nat × Route)) :
    (tryInOrder request candidates).findSome? (·.match?) = candidates.findSome? (answer? request) := by
  induction candidates with
  | nil => rfl
  | cons candidate candidates ih =>
    obtain ⟨place, route⟩ := candidate
    rw [tryInOrder, List.findSome?_cons, answer?]
    cases route.judge request with
    | accepted values => rfl
    | unmatched => exact ih
    | refusedByRule name slug => exact ih
    | refusedByHeaders => exact ih

/-- Where no candidate is accepted, every one is attempted. -/
theorem any_tryInOrder {request : Request} {candidates : List (Nat × Route)}
    (h : candidates.findSome? (answer? request) = none) :
    (tryInOrder request candidates).any (·.verdict.isRefusal)
      = candidates.any fun candidate => (candidate.2.judge request).isRefusal := by
  induction candidates with
  | nil => rfl
  | cons candidate candidates ih =>
    obtain ⟨place, route⟩ := candidate
    rw [List.findSome?_cons, answer?] at h
    unfold tryInOrder
    cases hjudge : route.judge request <;> simp_all [Verdict.values?]

/-- The first match among all routes that have the method is that of the first route that answers. -/
theorem findSome?_candidates {request : Request} (routes : List Route) (start : Nat)
    {found : RouteMatch}
    (h : ((routes.zipIdx start).flatMap fun (route, place) =>
      List.replicate (route.methods.count request.method) (place, route)).findSome?
        (answer? request) = some found) :
    ∃ before route after values, routes = before ++ route :: after
      ∧ route.Answers request values ∧ (∀ earlier ∈ before, ∀ others, ¬ earlier.Answers request others)
      ∧ found = ⟨start + before.length, route, values⟩ := by
  induction routes generalizing start with
  | nil => cases h
  | cons route routes ih =>
    rw [List.zipIdx_cons, List.flatMap_cons, List.findSome?_append, List.findSome?_replicate,
      Option.or_eq_some_iff] at h
    rcases h with h | ⟨hroute, h⟩
    · split at h
      · cases h
      rename_i hcount
      obtain ⟨values, hjudge, rfl⟩ := answer?_eq_some_iff.1 h
      have hmethod := List.count_pos_iff.1 (Nat.pos_of_ne_zero hcount)
      exact ⟨[], route, routes, values, rfl, Route.answers_iff.2 ⟨hmethod, hjudge⟩, by simp, rfl⟩
    · obtain ⟨before, later, after, values, rfl, hanswers, hbefore, rfl⟩ := ih (start + 1) h
      refine ⟨route :: before, later, after, values, rfl, hanswers, ?_, ?_⟩
      · refine List.forall_mem_cons.2 ⟨?_, hbefore⟩
        intro others hothers
        obtain ⟨hmethod, hjudge⟩ := Route.answers_iff.1 hothers
        rw [if_neg (Nat.ne_of_gt (List.count_pos_iff.2 hmethod)), answer?_eq_none_iff] at hroute
        exact hroute others hjudge
      · rw [List.length_cons, Nat.add_right_comm, Nat.add_assoc]

/-! ## The decision -/

/-- The methods that are reported are those that would have been accepted. -/
theorem mem_allowedMethods_iff {request : Request} {method : String} :
    method ∈ table.allowedMethods request ↔ Allows table.routes request method := by
  have htakes : ∀ route : Route, takes route request = true ↔ route.Takes request := by
    intro route
    rw [takes, Route.Takes]
    cases route.template.extract request.subject <;> simp
  have haccepts : ∀ route : Route,
      (!route.accepts request.method) = true ↔ request.method ∉ route.methods := by
    intro route
    rw [Bool.not_eq_true', ← Bool.not_eq_true, Route.accepts_iff]
  simp only [allowedMethods, SortedMap.mem_names_ofList, List.map_map, Function.comp_def, List.map_id',
    List.mem_flatMap, List.mem_filter, Bool.and_eq_true, htakes, haccepts, Allows, and_assoc]

/-- Dispatching decides a request. -/
theorem decides_dispatch (h : ofRoutes routes = .ok table) (request : Request) :
    Decides routes request (table.dispatch request) := by
  obtain ⟨hroutes, -⟩ := ofRoutes_eq_ok h
  have hcandidates := routesFor_eq h request.method
  rw [dispatch, conclude, attempts, findSome?_tryInOrder]
  cases hfound : (table.routesFor request.method).findSome? (answer? request) with
  | some found =>
    rw [hcandidates] at hfound
    obtain ⟨before, route, after, values, hsplit, hanswers, hbefore, rfl⟩ :=
      findSome?_candidates routes 0 hfound
    simp only [Nat.zero_add]
    exact .found hsplit hanswers hbefore
  | none =>
    have hjudge : ∀ route ∈ routes, request.method ∈ route.methods →
        ∀ values, route.judge request ≠ .accepted values := by
      intro route hroute hmethod
      obtain ⟨place, hplace⟩ := List.mem_iff_getElem?.1 hroute
      have hmem := (mem_routesFor_iff h).2 ⟨hplace, hmethod⟩
      exact answer?_eq_none_iff.1 (List.findSome?_eq_none_iff.1 hfound _ hmem)
    simp only [refusal, any_tryInOrder hfound]
    split
    · rename_i hrefused
      obtain ⟨⟨place, route⟩, hmem, hrefusal⟩ := List.any_eq_true.1 hrefused
      obtain ⟨hplace, hmethod⟩ := (mem_routesFor_iff h).1 hmem
      have hroute := List.mem_of_getElem? hplace
      refine .refused ?_ hroute hmethod ((Route.isRefusal_judge (hjudge route hroute hmethod)).1 hrefusal)
      intro other hother values hanswers
      obtain ⟨hmethod', hjudge'⟩ := Route.answers_iff.1 hanswers
      exact hjudge other hother hmethod' values hjudge'
    · rename_i hrefused
      have hunmatched : ∀ route ∈ routes, request.method ∈ route.methods →
          route.template.extract request.subject = .unmatched := by
        intro route hroute hmethod
        by_contra hmatched
        obtain ⟨place, hplace⟩ := List.mem_iff_getElem?.1 hroute
        refine hrefused (List.any_eq_true.2 ⟨_, (mem_routesFor_iff h).2 ⟨hplace, hmethod⟩, ?_⟩)
        exact (Route.isRefusal_judge (hjudge route hroute hmethod)).2 hmatched
      have hallowed : ∀ method, method ∈ table.allowedMethods request
          ↔ Allows routes request method := fun method => hroutes ▸ mem_allowedMethods_iff
      cases hmethods : table.allowedMethods request with
      | nil =>
        apply Decides.missing hunmatched
        intro method hallows
        have hmem := (hallowed method).2 hallows
        rw [hmethods] at hmem
        cases hmem
      | cons first others =>
        rw [hmethods] at hallowed
        refine .notAllowed hunmatched hallowed ?_ (by simp)
        rw [← hmethods]
        exact SortedMap.pairwise_names _

end RouteTable

/-! ## There is one answer -/

namespace Decides

variable {routes : List Route} {request : Request} {result result' : Except RequestError RouteMatch}

/-- What comes before the first that answers is determined. -/
theorem length_le_of_first {p : Route → Prop} {before before' after after' : List Route}
    {route route' : Route} (heq : before ++ route :: after = before' ++ route' :: after')
    (hroute : p route) (hbefore' : ∀ earlier ∈ before', ¬ p earlier) :
    before'.length ≤ before.length := by
  by_contra hlt
  have hmem : route ∈ before' := by
    have hget : (before' ++ route' :: after')[before.length]? = some route := by
      rw [← heq]
      simp
    rw [List.getElem?_append_left (Nat.lt_of_not_le hlt)] at hget
    exact List.mem_of_getElem? hget
  exact hbefore' route hmem hroute

/-- Where a route answers, the first one is found. -/
theorem eq_of_found {before after : List Route} {route : Route} {values : List (String × Value)}
    (h : Decides routes request result) (hroutes : routes = before ++ route :: after)
    (hanswers : route.Answers request values)
    (hbefore : ∀ earlier ∈ before, ∀ others, ¬ earlier.Answers request others) :
    result = .ok ⟨before.length, route, values⟩ := by
  have hmem : route ∈ routes := by simp [hroutes]
  have hmatched : route.template.extract request.subject ≠ .unmatched := by
    rw [hanswers.extract_eq]
    simp
  cases h with
  | @found before' after' route' values' hroutes' hanswers' hbefore' =>
    have hsplit := hroutes.symm.trans hroutes'
    have hle := @length_le_of_first (fun r => ∃ vs, r.Answers request vs) _ _ _ _ _ _ hsplit
      ⟨values, hanswers⟩ fun earlier hearlier ⟨vs, hvs⟩ => hbefore' earlier hearlier vs hvs
    have hge := @length_le_of_first (fun r => ∃ vs, r.Answers request vs) _ _ _ _ _ _ hsplit.symm
      ⟨values', hanswers'⟩ fun earlier hearlier ⟨vs, hvs⟩ => hbefore earlier hearlier vs hvs
    obtain ⟨hlists, htails⟩ := List.append_inj hsplit (Nat.le_antisymm hge hle)
    obtain ⟨rfl, -⟩ := List.cons.inj htails
    have hvalues : values' = values := by
      have hextract := hanswers.extract_eq.symm.trans hanswers'.extract_eq
      injection hextract with hvalues
      exact hvalues.symm
    rw [hlists, hvalues]
  | refused hnone => exact absurd hanswers (hnone route hmem values)
  | notAllowed hunmatched => exact absurd (hunmatched route hmem hanswers.accepts) hmatched
  | missing hunmatched => exact absurd (hunmatched route hmem hanswers.accepts) hmatched

/-- Where a route of the method matched but none answers, there is no route. -/
theorem eq_of_refused {route : Route} (h : Decides routes request result)
    (hnone : ∀ route ∈ routes, ∀ values, ¬ route.Answers request values) (hroute : route ∈ routes)
    (haccepts : request.method ∈ route.methods)
    (hmatched : route.template.extract request.subject ≠ .unmatched) : result = .error .notFound := by
  cases h with
  | found hroutes hanswers => exact absurd hanswers (hnone _ (by simp [hroutes]) _)
  | refused => rfl
  | notAllowed hunmatched => exact absurd (hunmatched route hroute haccepts) hmatched
  | missing => rfl

/-- Where no route of the method matched, no route is found. -/
theorem not_answers_of_unmatched
    (hunmatched : ∀ route ∈ routes, request.method ∈ route.methods →
      route.template.extract request.subject = .unmatched) :
    ∀ route ∈ routes, ∀ values, ¬ route.Answers request values := by
  intro route hroute values hanswers
  have hextract := hunmatched route hroute hanswers.accepts
  rw [hanswers.extract_eq] at hextract
  cases hextract

/-- Where methods would have been accepted, they are reported. -/
theorem eq_of_notAllowed {allowed : List String} (h : Decides routes request result)
    (hunmatched : ∀ route ∈ routes, request.method ∈ route.methods →
      route.template.extract request.subject = .unmatched)
    (hallowed : ∀ method, method ∈ allowed ↔ Allows routes request method)
    (hsorted : allowed.Pairwise (· < ·)) (hne : allowed ≠ []) :
    result = .error (.methodNotAllowed request.method allowed) := by
  cases h with
  | found hroutes hanswers =>
    exact absurd hanswers (not_answers_of_unmatched hunmatched _ (by simp [hroutes]) _)
  | refused hnone hroute haccepts hmatched => exact absurd (hunmatched _ hroute haccepts) hmatched
  | notAllowed _ hallowed' hsorted' _ =>
    have hsame := hsorted'.eq_of_mem_iff hsorted fun method =>
      (hallowed' method).trans (hallowed method).symm
    rw [hsame]
  | missing _ hnone =>
    obtain ⟨method, hmethod⟩ := List.exists_mem_of_ne_nil allowed hne
    exact absurd ((hallowed method).1 hmethod) (hnone method)

/-- Where no method would have been accepted, there is no route. -/
theorem eq_of_missing (h : Decides routes request result)
    (hunmatched : ∀ route ∈ routes, request.method ∈ route.methods →
      route.template.extract request.subject = .unmatched)
    (hnone : ∀ method, ¬ Allows routes request method) : result = .error .notFound := by
  cases h with
  | found hroutes hanswers =>
    exact absurd hanswers (not_answers_of_unmatched hunmatched _ (by simp [hroutes]) _)
  | refused => rfl
  | notAllowed _ hallowed _ hne =>
    obtain ⟨method, hmethod⟩ := List.exists_mem_of_ne_nil _ hne
    exact absurd ((hallowed method).1 hmethod) (hnone method)
  | missing => rfl

/-- Where a route answers, a route is found. -/
theorem exists_ok_of_answers (h : Decides routes request result) {route : Route}
    (hroute : route ∈ routes) {values : List (String × Value)} (hanswers : route.Answers request values) :
    ∃ found, result = .ok found := by
  cases h with
  | found => exact ⟨_, rfl⟩
  | refused hnone => exact absurd hanswers (hnone route hroute values)
  | notAllowed hunmatched =>
    exact absurd hanswers (not_answers_of_unmatched hunmatched route hroute values)
  | missing hunmatched => exact absurd hanswers (not_answers_of_unmatched hunmatched route hroute values)

/-- The route that is found answers. -/
theorem answers_of_ok {found : RouteMatch} (h : Decides routes request (.ok found)) :
    found.route ∈ routes ∧ found.route.Answers request found.values := by
  cases h with
  | found hroutes hanswers _ =>
    rw [hroutes]
    exact ⟨List.mem_append_right _ List.mem_cons_self, hanswers⟩

/-- A request has one answer. -/
theorem unique (h : Decides routes request result) (h' : Decides routes request result') :
    result = result' := by
  cases h' with
  | found hroutes hanswers hbefore => exact h.eq_of_found hroutes hanswers hbefore
  | refused hnone hroute haccepts hmatched => exact h.eq_of_refused hnone hroute haccepts hmatched
  | notAllowed hunmatched hallowed hsorted hne =>
    exact h.eq_of_notAllowed hunmatched hallowed hsorted hne
  | missing hunmatched hnone => exact h.eq_of_missing hunmatched hnone

end Decides

/-! ## Requests that routes cannot tell apart -/

/-- Some routes cannot tell two requests apart. -/
structure Indistinct (routes : List Route) (request request' : Request) : Prop where
  /-- The method is the same. -/
  method : request'.method = request.method
  /-- The headers are the same. -/
  headers : request'.headers = request.headers
  /-- Every template makes the same of both. -/
  extract : ∀ route ∈ routes,
    route.template.extract request'.subject = route.template.extract request.subject

namespace Indistinct

variable {routes others : List Route} {request request' : Request}

theorem refl (routes : List Route) (request : Request) : Indistinct routes request request :=
  ⟨rfl, rfl, fun _ _ => rfl⟩

theorem answers_iff (h : Indistinct routes request request') {route : Route} (hroute : route ∈ routes)
    {values : List (String × Value)} :
    route.Answers request' values ↔ route.Answers request values := by
  rw [Route.answers_iff, Route.answers_iff, Route.judge, Route.judge, h.method, h.headers,
    h.extract route hroute]

/-- Routes that cannot tell two requests apart allow the same methods for both, in whatever order they
come. -/
theorem allows_iff (h : Indistinct routes request request')
    (hsame : ∀ route, route ∈ others ↔ route ∈ routes) (method : String) :
    Allows others request' method ↔ Allows routes request method := by
  have htakes : ∀ route ∈ routes, (route.Takes request' ↔ route.Takes request) := by
    intro route hroute
    rw [Route.Takes, Route.Takes, h.extract route hroute]
  rw [Allows, Allows, h.method]
  constructor
  · rintro ⟨route, hroute, hrejects, hmatched, hmethod⟩
    have hroute := (hsame route).1 hroute
    exact ⟨route, hroute, hrejects, (htakes route hroute).1 hmatched, hmethod⟩
  · rintro ⟨route, hroute, hrejects, hmatched, hmethod⟩
    exact ⟨route, (hsame route).2 hroute, hrejects, (htakes route hroute).2 hmatched, hmethod⟩

/-- Why there is no answer is the same for two requests that the routes cannot tell apart, and does not
depend on the order of the routes. -/
theorem decides_error (h : Indistinct routes request request')
    (hsame : ∀ route, route ∈ others ↔ route ∈ routes) {e : RequestError}
    (hdecides : Decides routes request (.error e)) : Decides others request' (.error e) := by
  have hunmatched' : (∀ route ∈ routes, request.method ∈ route.methods →
        route.template.extract request.subject = .unmatched) →
      ∀ route ∈ others, request'.method ∈ route.methods →
        route.template.extract request'.subject = .unmatched := by
    intro hunmatched route hroute haccepts
    have hroute := (hsame route).1 hroute
    rw [h.extract route hroute]
    exact hunmatched route hroute (h.method ▸ haccepts)
  cases hdecides with
  | refused hnone hroute haccepts hmatched =>
    refine .refused ?_ ((hsame _).2 hroute) (h.method ▸ haccepts) ((h.extract _ hroute).trans_ne hmatched)
    intro route hroute values hanswers
    have hroute := (hsame route).1 hroute
    exact hnone route hroute values ((h.answers_iff hroute).1 hanswers)
  | notAllowed hunmatched hallowed hsorted hne =>
    rw [← h.method]
    refine .notAllowed (hunmatched' hunmatched) ?_ hsorted hne
    intro method
    exact (hallowed method).trans (h.allows_iff hsame method).symm
  | missing hunmatched hnone =>
    refine .missing (hunmatched' hunmatched) ?_
    intro method hmethod
    exact hnone method ((h.allows_iff hsame method).1 hmethod)

/-- Two requests that the routes cannot tell apart have the same answer. -/
theorem decides (h : Indistinct routes request request') {result : Except RequestError RouteMatch}
    (hdecides : Decides routes request result) : Decides routes request' result := by
  cases result with
  | error e => exact h.decides_error (fun _ => Iff.rfl) hdecides
  | ok found =>
    cases hdecides with
    | @found before after route values hroutes hanswers hbefore =>
      have hmem : ∀ other ∈ before ++ route :: after, other ∈ routes := fun other hother => hroutes ▸ hother
      refine .found hroutes ((h.answers_iff (hmem route (by simp))).2 hanswers) ?_
      intro earlier hearlier others hothers
      exact hbefore earlier hearlier others ((h.answers_iff (hmem earlier (by simp [hearlier]))).1 hothers)

end Indistinct

namespace RouteTable

/-- Dispatching a request gives the answer to it, and no other. -/
theorem dispatch_eq_iff {routes : List Route} {table : RouteTable}
    (h : ofRoutes routes = .ok table) (request : Request) (result : Except RequestError RouteMatch) :
    table.dispatch request = result ↔ Decides routes request result := by
  constructor
  · rintro rfl
    exact decides_dispatch h request
  · exact fun hdecides => (decides_dispatch h request).unique hdecides

/-- The first route of a table is found where it answers. -/
theorem dispatch_eq_of_head {route : Route} {rest : List Route} {table : RouteTable}
    (h : ofRoutes (route :: rest) = .ok table) {request : Request} {values : List (String × Value)}
    (hanswers : route.Answers request values) : table.dispatch request = .ok ⟨0, route, values⟩ :=
  (decides_dispatch h request).eq_of_found (List.nil_append _).symm hanswers (by simp)

/-- A route without variables and headers, whose template takes its own path. -/
theorem exists_route_literal (methods : List String) : ∃ route table,
    ((Declaration.ofPath methods "/a").dispatchingTo (.handler "show")).compile .standard = .ok route
      ∧ ofRoutes [route] = .ok table ∧ route.methods = methods.eraseDups
      ∧ route.headers.toList = [] ∧ route.template.extract (Template.subject "" "/a") = .matched [] := by
  have hcompile := @Template.compile_of_parse .standard "/a" (.sequence [.literal "a"]) none []
    (by cbv) (by rintro side ⟨⟩) (by cbv) (by decide) (by decide +kernel)
  have hroute := (@Declaration.compile_eq_ok_iff .standard
    ((Declaration.ofPath methods "/a").dispatchingTo (.handler "show")) _).2
      ⟨_, _, rfl, hcompile, rfl⟩
  have hparts : Tree.DerivesAll .path [.literal "a"] (['a'] ++ []) _ _ :=
    .cons (.literal (.cons rfl .nil)) .nil
  have hpath : Tree.Derives .path (.sequence [.literal "a"]) (Template.stripSlashes "/a").toList _ _ :=
    .sequence hparts
  obtain ⟨captures, -, -, hextract, -, -⟩ := Template.IsCompiled.exists_captures
    (Template.compile_eq_ok hcompile).2.2 (by rintro tree ⟨⟩) (by decide)
    (.intro (.any "".toList) hpath)
  obtain ⟨table, htable⟩ := exists_ofRoutes_singleton _
  exact ⟨_, table, hroute, htable, rfl, rfl, hextract⟩

theorem dispatch_literal : ∃ route table,
    ((Declaration.ofPath ["GET"] "/a").dispatchingTo (.handler "show")).compile .standard = .ok route
      ∧ ofRoutes [route] = .ok table
      ∧ table.dispatch ⟨"GET", "", "/a", []⟩ = .ok ⟨0, route, []⟩
      ∧ table.dispatch ⟨"PUT", "", "/a", []⟩ = .error (.methodNotAllowed "PUT" ["GET"]) := by
  obtain ⟨route, table, hroute, htable, hmethods, hheaders, hextract⟩ := exists_route_literal ["GET"]
  rw [show ["GET"].eraseDups = ["GET"] from rfl] at hmethods
  refine ⟨route, table, hroute, htable, ?_, ?_⟩
  · rw [dispatch_eq_iff htable]
    have hanswers : route.Answers ⟨"GET", "", "/a", []⟩ [] :=
      ⟨by simp [hmethods], hextract, by simp [hheaders]⟩
    exact .found (List.nil_append _).symm hanswers (by simp)
  · rw [dispatch_eq_iff htable]
    refine .notAllowed (by simp [hmethods]) ?_ (List.pairwise_singleton _ _) (by simp)
    intro method
    simp [Allows, Route.Takes, Request.subject, hmethods, hextract]

/-- A route without methods takes requests, but there is no method to report for it. -/
theorem dispatch_route_without_methods : ∃ route table,
    ((Declaration.ofPath [] "/a").dispatchingTo (.handler "show")).compile .standard = .ok route
      ∧ ofRoutes [route] = .ok table
      ∧ "GET" ∉ route.methods ∧ route.Takes ⟨"GET", "", "/a", []⟩
      ∧ ∀ allowed, table.dispatch ⟨"GET", "", "/a", []⟩ ≠ .error (.methodNotAllowed "GET" allowed) := by
  obtain ⟨route, table, hroute, htable, hmethods, -, hextract⟩ := exists_route_literal []
  rw [show ([] : List String).eraseDups = [] from rfl] at hmethods
  refine ⟨route, table, hroute, htable, by simp [hmethods], ⟨[], hextract⟩, ?_⟩
  have hmissing : table.dispatch ⟨"GET", "", "/a", []⟩ = .error .notFound :=
    (decides_dispatch htable _).eq_of_missing (by simp [hmethods]) (by simp [Allows, hmethods])
  simp [hmissing]

end RouteTable

end UriRouting
