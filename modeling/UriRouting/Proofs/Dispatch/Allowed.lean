import UriRouting.Proofs.Dispatch.Decision
/-!
# Methods that are allowed

A request whose method is not allowed is told the methods that are. The routes behind this list are not
those that were tried for the request, and their headers are not looked at. The list can still be relied
on: the template of a route does not see the method, so what a route would have made of the request is
what it makes of the same request with a method of its own.

* `Allows.ne_methodNotAllowed`, `Allows.exists_ok` and `allows_of_ok` say what the methods that would
  have been accepted mean for the same request with another method;
* `RouteTable.Truthful` says what the methods that are reported promise;
* `RouteTable.truthful_of_dispatch` says that dispatching keeps the promise.
-/

namespace UriRouting

namespace Request

/-- The request with another method. -/
def withMethod (request : Request) (method : String) : Request :=
  { request with method }

@[simp] theorem subject_withMethod (request : Request) (method : String) :
    (request.withMethod method).subject = request.subject :=
  rfl

end Request

/-! ## Methods that would have been accepted -/

section

variable {routes : List Route} {request : Request} {method : String}
  {result : Except RequestError RouteMatch}

/-- The method of a request is not among those that would have been accepted instead. -/
theorem not_allows_method (routes : List Route) (request : Request) :
    ¬ Allows routes request request.method := by
  rintro ⟨route, -, hrejects, -, haccepts⟩
  exact hrejects haccepts

/-- With a method that would have been accepted, some route of the method matches, so the method is not
refused. -/
theorem Allows.ne_methodNotAllowed (h : Allows routes request method)
    (hdecides : Decides routes (request.withMethod method) result) (refused : String)
    (others : List String) : result ≠ .error (.methodNotAllowed refused others) := by
  obtain ⟨route, hroute, -, ⟨values, hextract⟩, haccepts⟩ := h
  rintro rfl
  cases hdecides with
  | notAllowed hunmatched =>
    have hnone := hunmatched route hroute haccepts
    rw [Request.subject_withMethod, hextract] at hnone
    cases hnone

/-- Without headers to look for, a route is found with a method that would have been accepted. -/
theorem Allows.exists_ok (h : Allows routes request method)
    (hheaders : ∀ route ∈ routes, route.headers.toList = [])
    (hdecides : Decides routes (request.withMethod method) result) : ∃ found, result = .ok found := by
  obtain ⟨route, hroute, -, ⟨values, hextract⟩, haccepts⟩ := h
  have hanswers : route.Answers (request.withMethod method) values :=
    ⟨haccepts, hextract, by simp [hheaders route hroute]⟩
  exact hdecides.exists_ok_of_answers hroute hanswers

/-- Where no route of the method of a request matches, a method with which a route is found is one that
would have been accepted. -/
theorem allows_of_ok
    (hunmatched : ∀ route ∈ routes, request.method ∈ route.methods →
      route.template.extract request.subject = .unmatched) {found : RouteMatch}
    (hdecides : Decides routes (request.withMethod method) (.ok found)) :
    Allows routes request method := by
  obtain ⟨hroute, hanswers⟩ := hdecides.answers_of_ok
  have hrejects : request.method ∉ found.route.methods := by
    intro haccepts
    have hnone := hunmatched found.route hroute haccepts
    rw [← Request.subject_withMethod request method, hanswers.extract_eq] at hnone
    cases hnone
  exact ⟨found.route, hroute, hrejects, ⟨found.values, hanswers.extract_eq⟩, hanswers.accepts⟩

end

/-! ## The methods that are reported -/

/-- What the methods that are reported promise for the same request with another method. -/
structure RouteTable.Truthful (table : RouteTable) (request : Request) (allowed : List String) :
    Prop where
  /-- The method of the request is not allowed. -/
  own : request.method ∉ allowed
  /-- A method that is allowed is not refused. -/
  accepted : ∀ method ∈ allowed, ∀ refused others,
    table.dispatch (request.withMethod method) ≠ .error (.methodNotAllowed refused others)
  /-- Where no route asks for headers, a route is found with each method that is allowed. -/
  found : (∀ route ∈ table.routes, route.headers.toList = []) →
    ∀ method ∈ allowed, ∃ found, table.dispatch (request.withMethod method) = .ok found
  /-- Every method with which a route is found is allowed. -/
  complete : ∀ method found, table.dispatch (request.withMethod method) = .ok found → method ∈ allowed

namespace RouteTable

/-- The methods that are reported for a request can be relied on. -/
theorem truthful_of_dispatch {routes : List Route} {table : RouteTable}
    (htable : ofRoutes routes = .ok table) {request : Request} {method : String} {allowed : List String}
    (h : table.dispatch request = .error (.methodNotAllowed method allowed)) :
    method = request.method ∧ table.Truthful request allowed := by
  obtain ⟨hroutes, -⟩ := ofRoutes_eq_ok htable
  have hother := fun method => decides_dispatch htable (request.withMethod method)
  have hdecides := decides_dispatch htable request
  rw [h] at hdecides
  cases hdecides with
  | notAllowed hunmatched hallowed _ _ =>
    refine ⟨rfl, ?_, ?_, ?_, ?_⟩
    · rw [hallowed]
      exact not_allows_method routes request
    · intro method hmethod
      exact ((hallowed method).1 hmethod).ne_methodNotAllowed (hother method)
    · intro hheaders method hmethod
      rw [hroutes] at hheaders
      exact ((hallowed method).1 hmethod).exists_ok hheaders (hother method)
    · intro method found hfound
      have hdecides := hother method
      rw [hfound] at hdecides
      exact (hallowed method).2 (allows_of_ok hunmatched hdecides)

/-- In a table of its own, a route that takes a request with another method has its method reported. -/
theorem dispatch_eq_methodNotAllowed {route : Route} {table : RouteTable}
    (h : ofRoutes [route] = .ok table) {method : String} (hmethods : route.methods = [method])
    {request : Request} (hne : request.method ≠ method) (htakes : route.Takes request) :
    table.dispatch request = .error (.methodNotAllowed request.method [method]) := by
  refine (decides_dispatch h request).eq_of_notAllowed ?_ ?_ (List.pairwise_singleton _ _) (by simp)
  · simp [hmethods, hne]
  · intro other
    simp [Allows, hmethods, hne, htakes]

/-- The method of a route is reported for a request with another method, and the route is found with
it. -/
theorem truthful_of_dispatch_literal : ∃ route table,
    ((Declaration.ofPath ["GET"] "/a").dispatchingTo (.handler "show")).compile .standard = .ok route
      ∧ ofRoutes [route] = .ok table
      ∧ table.dispatch ⟨"PUT", "", "/a", []⟩ = .error (.methodNotAllowed "PUT" ["GET"])
      ∧ table.Truthful ⟨"PUT", "", "/a", []⟩ ["GET"] := by
  obtain ⟨route, table, hroute, htable, hmethods, hheaders, hextract⟩ := exists_route_literal ["GET"]
  rw [show ["GET"].eraseDups = ["GET"] from rfl] at hmethods
  have hrefused := @dispatch_eq_methodNotAllowed _ _ htable _ hmethods ⟨"PUT", "", "/a", []⟩ (by simp)
    ⟨[], hextract⟩
  exact ⟨route, table, hroute, htable, hrefused, (truthful_of_dispatch htable hrefused).2⟩

end RouteTable

end UriRouting
