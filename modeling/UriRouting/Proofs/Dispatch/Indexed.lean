import UriRouting.Proofs.Dispatch.Reordered
/-!
# The indices of a route table

A request is answered from the index by method, and a path is generated from the index by name; neither
looks through the routes. So the indices have to say what the routes say: which of them accept a method,
and which of them has a name. They are filled route by route, and filling stops at the first name that
comes again.

* `RouteTable.getElem?_indexNames` and `RouteTable.routesFor_eq_filterMap` say what the two indices hold;
* `RouteTable.ofRoutes_eq_error_iff` says when routes make no table, and which name is reported;
* `RouteTable.Agrees` says that a table agrees with its routes, and `RouteTable.agrees_of_ofRoutes` that
  every table of assembled routes does.
-/

namespace UriRouting

/-! ## Assembled routes -/

/-- A declaration that was put together step by step. -/
inductive Declaration.Assembled : Declaration → Prop where
  /-- A declaration starts with its methods and its path. -/
  | ofPath (methods : List String) (path : String) : Assembled (.ofPath methods path)
  /-- An action is set. -/
  | dispatchingTo {declaration : Declaration} (h : Assembled declaration) (action : Action) :
      Assembled (declaration.dispatchingTo action)
  /-- A name is given. -/
  | named {declaration : Declaration} (h : Assembled declaration) (name : String) :
      Assembled (declaration.named name)
  /-- A host is set. -/
  | onHost {declaration : Declaration} (h : Assembled declaration) (host : String) :
      Assembled (declaration.onHost host)
  /-- Attributes are added. -/
  | withAttributes {declaration : Declaration} (h : Assembled declaration)
      (attributes : List (String × Value)) : Assembled (declaration.withAttributes attributes)
  /-- Middleware is added. -/
  | withMiddleware {declaration : Declaration} (h : Assembled declaration)
      (middleware : List Middleware) : Assembled (declaration.withMiddleware middleware)
  /-- A header is asked for. -/
  | withHeader {declaration : Declaration} (h : Assembled declaration) (name value : String) :
      Assembled (declaration.withHeader name value)

theorem nodup_eraseDups (methods : List String) : methods.eraseDups.Nodup := by
  induction h : methods.length using Nat.strong_induction_on generalizing methods with
  | _ n ih =>
    cases methods with
    | nil => exact List.nodup_nil
    | cons method rest =>
      rw [List.eraseDups_cons, List.nodup_cons]
      refine ⟨by simp, ih _ ?_ _ rfl⟩
      have := List.length_filter_le (fun other => !other == method) rest
      rw [← h, List.length_cons]
      omega

/-- No method comes twice: the first step drops what is repeated, and no other step adds one. -/
theorem Declaration.Assembled.nodup_methods {declaration : Declaration}
    (h : declaration.Assembled) : declaration.methods.Nodup := by
  induction h with
  | ofPath methods path => exact nodup_eraseDups methods
  | _ => assumption

/-- A route that was made of an assembled declaration, whatever its rules. -/
def Route.Assembled (route : Route) : Prop :=
  ∃ book declaration, Declaration.Assembled declaration ∧ declaration.compile book = .ok route

theorem Route.Assembled.nodup_methods {route : Route} (h : route.Assembled) :
    route.methods.Nodup := by
  obtain ⟨book, declaration, hdeclaration, hroute⟩ := h
  obtain ⟨action, template, -, -, rfl⟩ := Declaration.compile_eq_ok_iff.1 hroute
  exact hdeclaration.nodup_methods

namespace RouteTable

/-! ## The index by name -/

/-- The index by name holds what it held before, and the place of each route under its name. -/
theorem getElem?_indexNames {routes : List Route} {index byName : Std.HashMap String Nat}
    {place : Nat} (h : indexNames index place routes = .ok byName) (name : String) (found : Nat) :
    byName[name]? = some found ↔ index[name]? = some found
      ∨ ∃ i route, routes[i]? = some route ∧ route.name = some name ∧ found = place + i := by
  induction routes generalizing index place with
  | nil =>
    cases h
    simp
  | cons route routes ih =>
    -- the route at place `i` of the rest is the one at place `i + 1` of the whole
    have hcons : (∃ i other, (route :: routes)[i]? = some other ∧ other.name = some name
          ∧ found = place + i)
        ↔ (route.name = some name ∧ found = place)
          ∨ ∃ i other, routes[i]? = some other ∧ other.name = some name
            ∧ found = place + 1 + i := by
      constructor
      · rintro ⟨_ | i, other, hother, hname, hfound⟩
        · obtain rfl := Option.some.inj hother
          exact Or.inl ⟨hname, hfound⟩
        · exact Or.inr ⟨i, other, hother, hname, by omega⟩
      · rintro (⟨hname, hfound⟩ | ⟨i, other, hother, hname, hfound⟩)
        · exact ⟨0, route, rfl, hname, hfound⟩
        · exact ⟨i + 1, other, hother, hname, by omega⟩
    rw [indexNames] at h
    rw [hcons]
    cases hname : route.name with
    | none =>
      simp only [hname] at h
      rw [ih h]
      simp
    | some own =>
      simp only [hname] at h
      split at h
      · cases h
      rename_i hfresh
      rw [ih h, Std.HashMap.getElem?_insert]
      by_cases heq : own = name
      · subst heq
        have hnone : index[own]? = none := by simpa using hfresh
        simp [hnone, eq_comm]
      · simp [heq]

/-- Indexing routes is indexing the first few, and then the others from where these end. -/
theorem indexNames_append {before : List Route} {index byName : Std.HashMap String Nat} {place : Nat}
    (h : indexNames index place before = .ok byName) (after : List Route) :
    indexNames index place (before ++ after) = indexNames byName (place + before.length) after := by
  induction before generalizing index place with
  | nil =>
    cases h
    rfl
  | cons route before ih =>
    rw [indexNames] at h
    rw [List.cons_append, indexNames, List.length_cons,
      show place + (before.length + 1) = place + 1 + before.length by omega]
    cases hname : route.name with
    | none =>
      simp only [hname] at h
      exact ih h
    | some own =>
      simp only [hname] at h
      split at h
      · cases h
      · rename_i hfresh
        simp only [hfresh]
        exact ih h

/-- Indexing stops at a route whose name is in the index of the routes before it. -/
theorem exists_of_indexNames_eq_error {routes : List Route} {index : Std.HashMap String Nat}
    {place : Nat} {e : DeclarationError} (h : indexNames index place routes = .error e) :
    ∃ before route after byName name, routes = before ++ route :: after
      ∧ indexNames index place before = .ok byName ∧ route.name = some name
      ∧ byName.contains name = true ∧ e = .duplicateRoute name := by
  induction routes generalizing index place with
  | nil => cases h
  | cons route routes ih =>
    rw [indexNames] at h
    cases hname : route.name with
    | none =>
      simp only [hname] at h
      obtain ⟨before, other, after, byName, name, rfl, hbefore, hrest⟩ := ih h
      refine ⟨route :: before, other, after, byName, name, rfl, ?_, hrest⟩
      rw [indexNames, hname]
      exact hbefore
    | some own =>
      simp only [hname] at h
      split at h
      · rename_i hcontains
        cases h
        exact ⟨[], route, routes, index, own, rfl, rfl, hname, hcontains, rfl⟩
      · rename_i hfresh
        obtain ⟨before, other, after, byName, name, rfl, hbefore, hrest⟩ := ih h
        refine ⟨route :: before, other, after, byName, name, rfl, ?_, hrest⟩
        rw [indexNames, hname]
        simp only [hfresh]
        exact hbefore

/-- A name comes again, and no name has come again before it. -/
inductive FirstRepeated (routes : List Route) : String → Prop where
  | intro {before after : List Route} {route : Route} {name : String}
      (hroutes : routes = before ++ route :: after) (hname : route.name = some name)
      (hearlier : ∃ earlier ∈ before, earlier.name = some name)
      (hdistinct : (before.filterMap (·.name)).Nodup) : FirstRepeated routes name

theorem contains_indexNames_iff {routes : List Route} {byName : Std.HashMap String Nat}
    (h : indexNames {} 0 routes = .ok byName) (name : String) :
    byName.contains name = true ↔ ∃ route ∈ routes, route.name = some name := by
  rw [Std.HashMap.contains_eq_isSome_getElem?, Option.isSome_iff_exists]
  simp only [getElem?_indexNames h]
  constructor
  · rintro ⟨found, hfound | ⟨i, route, hroute, hname, -⟩⟩
    · simp at hfound
    · exact ⟨route, List.mem_of_getElem? hroute, hname⟩
  · rintro ⟨route, hroute, hname⟩
    obtain ⟨i, hi⟩ := List.mem_iff_getElem?.1 hroute
    exact ⟨i, Or.inr ⟨i, route, hi, hname, by omega⟩⟩

theorem ofRoutes_eq_error {routes : List Route} {e : DeclarationError} :
    ofRoutes routes = .error e ↔ indexNames {} 0 routes = .error e := by
  rw [ofRoutes]
  cases indexNames {} 0 routes <;> simp [Except.map]

/-- Routes make no table if and only if a name comes again, and the name whose second route comes first
is reported. -/
theorem ofRoutes_eq_error_iff {routes : List Route} {e : DeclarationError} :
    ofRoutes routes = .error e ↔ ∃ name, FirstRepeated routes name ∧ e = .duplicateRoute name := by
  rw [ofRoutes_eq_error]
  constructor
  · intro h
    obtain ⟨before, route, after, byName, name, hroutes, hbefore, hname, hcontains, rfl⟩ :=
      exists_of_indexNames_eq_error h
    refine ⟨name, .intro hroutes hname ((contains_indexNames_iff hbefore name).1 hcontains) ?_, rfl⟩
    exact (exists_indexNames_iff.1 ⟨byName, hbefore⟩).1
  · rintro ⟨name, ⟨rfl, hname, hearlier, hdistinct⟩, rfl⟩
    obtain ⟨byName, hbefore⟩ := @exists_indexNames_iff _ {} 0 |>.2 ⟨hdistinct, by simp⟩
    have hcontains := (contains_indexNames_iff hbefore name).2 hearlier
    rw [indexNames_append hbefore, indexNames, hname]
    simp [hcontains]

/-- Names are distinct unless two routes at different places carry the same one. -/
theorem not_nodup_names_iff {routes : List Route} :
    ¬ (routes.filterMap (·.name)).Nodup ↔ ∃ (i j : Nat) (first second : Route) (name : String),
      i < j ∧ routes[i]? = some first ∧ routes[j]? = some second
        ∧ first.name = some name ∧ second.name = some name := by
  rw [List.Nodup, List.pairwise_filterMap, List.pairwise_iff_getElem]
  constructor
  · intro h
    push Not at h
    obtain ⟨i, j, hi, hj, hlt, name, hfirst, other, hsecond, rfl⟩ := h
    exact ⟨i, j, routes[i], routes[j], name, hlt, List.getElem?_eq_getElem hi,
      List.getElem?_eq_getElem hj, hfirst, hsecond⟩
  · rintro ⟨i, j, first, second, name, hlt, hi, hj, hfirst, hsecond⟩ h
    obtain ⟨hlti, rfl⟩ := List.getElem?_eq_some_iff.1 hi
    obtain ⟨hltj, rfl⟩ := List.getElem?_eq_some_iff.1 hj
    exact h i j hlti hltj hlt name hfirst name hsecond rfl

/-! ## The index by method -/

section

variable {routes : List Route} {table : RouteTable}

/-- The candidates for a method are the routes that have it, if no route has a method twice. -/
theorem routesFor_eq_filterMap (h : ofRoutes routes = .ok table)
    (hnodup : ∀ route ∈ routes, route.methods.Nodup) (method : String) :
    table.routesFor method = routes.zipIdx.filterMap fun (route, place) =>
      if method ∈ route.methods then some (place, route) else none := by
  rw [routesFor_eq h, List.filterMap_eq_flatMap_toList]
  apply List.flatMap_congr
  rintro ⟨route, place⟩ hentry
  have hroute : route ∈ routes := (List.mem_zipIdx_iff_getElem?.1 hentry) |> List.mem_of_getElem?
  by_cases hmem : method ∈ route.methods
  · simp [hmem, List.count_eq_one_of_mem (hnodup route hroute) hmem]
  · simp [hmem, List.count_eq_zero_of_not_mem hmem]

theorem routesFor_ascending (h : ofRoutes routes = .ok table)
    (hnodup : ∀ route ∈ routes, route.methods.Nodup) (method : String) :
    (table.routesFor method).Pairwise (·.1 < ·.1) := by
  have hplaces : routes.zipIdx.Pairwise (·.2 < ·.2) := by
    rw [← List.pairwise_map, List.zipIdx_map_snd]
    exact List.pairwise_lt_range'
  rw [routesFor_eq_filterMap h hnodup, List.pairwise_filterMap]
  refine hplaces.imp ?_
  rintro ⟨first, i⟩ ⟨second, j⟩ hlt entry hentry other hother
  simp only [Option.ite_none_right_eq_some, Option.some.injEq] at hentry hother
  rw [← hentry.2, ← hother.2]
  exact hlt

theorem map_routesFor (h : ofRoutes routes = .ok table)
    (hnodup : ∀ route ∈ routes, route.methods.Nodup) (method : String) :
    (table.routesFor method).map (·.2) = routes.filter fun route => decide (method ∈ route.methods) := by
  have hfilter : routes.filter (fun route => decide (method ∈ route.methods))
      = (routes.zipIdx.map (·.1)).filterMap (Option.guard fun route => method ∈ route.methods) := by
    rw [List.zipIdx_map_fst, List.filterMap_eq_filter]
  rw [routesFor_eq_filterMap h hnodup, List.map_filterMap, hfilter, List.filterMap_map]
  apply List.filterMap_congr
  rintro ⟨route, place⟩ -
  by_cases hmem : method ∈ route.methods <;> simp [hmem, Option.guard]

end

/-! ## Looking up a name -/

section

variable {routes : List Route} {table : RouteTable}

/-- The route of a name is the one that carries it. -/
theorem named_eq_ok_iff (h : ofRoutes routes = .ok table) {name : String} {place : Nat}
    {route : Route} :
    table.named name = .ok (place, route) ↔ routes[place]? = some route ∧ route.name = some name := by
  obtain ⟨byName, hindex, rfl⟩ := exists_of_ofRoutes_eq_ok h
  have hplace := getElem?_indexNames hindex name
  unfold named
  constructor
  · intro hnamed
    split at hnamed
    · cases hnamed
    rename_i found hfound
    split at hnamed
    · cases hnamed
    rename_i other hother
    cases hnamed
    obtain hempty | ⟨i, carrier, hcarrier, hname, rfl⟩ := (hplace _).1 hfound
    · simp at hempty
    · rw [Nat.zero_add] at hother ⊢
      obtain rfl := Option.some.inj (hcarrier.symm.trans hother)
      exact ⟨hother, hname⟩
  · rintro ⟨hroute, hname⟩
    have hfound : byName[name]? = some place :=
      (hplace place).2 (Or.inr ⟨place, route, hroute, hname, by omega⟩)
    simp only [hfound, hroute]

theorem eq_unknownRoute_of_named {name : String} {e : GenerationError}
    (h : table.named name = .error e) : e = .unknownRoute name := by
  unfold named at h
  split at h
  · exact (Except.error.inj h).symm
  split at h
  · exact (Except.error.inj h).symm
  · cases h

/-- Only a name that no route carries finds no route. -/
theorem named_eq_error_iff (h : ofRoutes routes = .ok table) {name : String} {e : GenerationError} :
    table.named name = .error e
      ↔ e = .unknownRoute name ∧ ∀ route ∈ routes, route.name ≠ some name := by
  constructor
  · intro hnamed
    refine ⟨eq_unknownRoute_of_named hnamed, fun route hroute hname => ?_⟩
    obtain ⟨place, hplace⟩ := List.mem_iff_getElem?.1 hroute
    rw [(named_eq_ok_iff h).2 ⟨hplace, hname⟩] at hnamed
    cases hnamed
  · rintro ⟨rfl, hnone⟩
    cases hnamed : table.named name with
    | ok entry =>
      obtain ⟨hroute, hname⟩ := (named_eq_ok_iff h).1 hnamed
      exact absurd hname (hnone _ (List.mem_of_getElem? hroute))
    | error e => rw [eq_unknownRoute_of_named hnamed]

end

/-! ## Agreement -/

/-- A table whose indices say what its routes say. -/
structure Agrees (table : RouteTable) (routes : List Route) : Prop where
  /-- The routes are there, in their order. -/
  routes_eq : table.routes = routes
  /-- The candidates for a method are the routes that accept it, each once and in their order. -/
  candidates : ∀ method, (table.routesFor method).map (·.2)
    = routes.filter fun route => decide (method ∈ route.methods)
  /-- The places of the candidates ascend. -/
  ascending : ∀ method, (table.routesFor method).Pairwise (·.1 < ·.1)
  /-- Each candidate stands at its place. -/
  place : ∀ method, ∀ entry ∈ table.routesFor method, routes[entry.1]? = some entry.2
  /-- A name finds the route that carries it, and no other route carries it. -/
  named : ∀ name place route, table.named name = .ok (place, route)
    ↔ routes[place]? = some route ∧ route.name = some name
  /-- Only a name that no route carries finds none. -/
  unnamed : ∀ name e, table.named name = .error e
    ↔ e = .unknownRoute name ∧ ∀ route ∈ routes, route.name ≠ some name

/-- Assembled routes make no table if and only if two of them carry the same name, and the name whose
second route comes first is reported. The indices of a table that they make agree with them. -/
theorem agrees_of_ofRoutes {routes : List Route} (hroutes : ∀ route ∈ routes, route.Assembled) :
    ((∃ e, ofRoutes routes = .error e) ↔ ∃ (i j : Nat) (first second : Route) (name : String),
        i < j ∧ routes[i]? = some first ∧ routes[j]? = some second
          ∧ first.name = some name ∧ second.name = some name)
      ∧ (∀ e, ofRoutes routes = .error e ↔ ∃ name, FirstRepeated routes name ∧ e = .duplicateRoute name)
      ∧ ∀ table, ofRoutes routes = .ok table → table.Agrees routes := by
  have hnodup : ∀ route ∈ routes, route.methods.Nodup :=
    fun route hroute => (hroutes route hroute).nodup_methods
  refine ⟨?_, fun e => ofRoutes_eq_error_iff, fun table htable => ?_⟩
  · rw [← not_nodup_names_iff, ← exists_ofRoutes_iff]
    cases ofRoutes routes <;> simp
  · exact {
      routes_eq := (ofRoutes_eq_ok htable).1
      candidates := map_routesFor htable hnodup
      ascending := routesFor_ascending htable hnodup
      place := fun method entry hentry => ((mem_routesFor_iff htable).1 hentry).1
      named := fun name place route => named_eq_ok_iff htable
      unnamed := fun name e => named_eq_error_iff htable }

/-- A method that is declared twice is indexed once, and the second route of a name is refused. -/
theorem agrees_of_ofRoutes_repeated : ∃ first second table,
    first.Assembled ∧ second.Assembled ∧ first.methods = ["GET", "HEAD"] ∧ first.name = some "r"
      ∧ second.methods = ["GET"] ∧ second.name = none
      ∧ ofRoutes [first, second] = .ok table ∧ table.Agrees [first, second]
      ∧ ofRoutes [first, second, first] = .error (.duplicateRoute "r") := by
  obtain ⟨route, _, hroute, -, hmethods, -, -⟩ := exists_route_literal ["GET", "HEAD", "GET"]
  obtain ⟨second, _, hsecond, -, hmethods', -, -⟩ := exists_route_literal ["GET"]
  have hnone : second.name = none := by
    obtain ⟨_, _, -, -, rfl⟩ := Declaration.compile_eq_ok_iff.1 hsecond
    rfl
  have hassembled : Route.Assembled { route with name := some "r" } :=
    ⟨_, _, .named (.dispatchingTo (.ofPath _ _) _) "r", Declaration.compile_named hroute "r"⟩
  have hassembled' : second.Assembled := ⟨_, _, .dispatchingTo (.ofPath _ _) _, hsecond⟩
  obtain ⟨table, htable⟩ : ∃ table, ofRoutes [{ route with name := some "r" }, second] = .ok table :=
    exists_ofRoutes_iff.2 (by simp [hnone])
  refine ⟨_, second, table, hassembled, hassembled', ?_, rfl, ?_, hnone, htable, ?_, ?_⟩
  · exact hmethods.trans (by decide)
  · exact hmethods'.trans (by decide)
  · exact (agrees_of_ofRoutes (by simp [hassembled, hassembled'])).2.2 table htable
  · refine ((agrees_of_ofRoutes (by simp [hassembled, hassembled'])).2.1 _).2 ⟨"r", ?_, rfl⟩
    exact @FirstRepeated.intro _ [_, second] [] _ _ rfl rfl ⟨_, List.mem_cons_self, rfl⟩ (by simp [hnone])

end RouteTable

end UriRouting
