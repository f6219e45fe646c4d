import UriRouting.Proofs.Dispatch.Decision
/-!
# The order of registration

The order in which routes are registered decides between the routes that answer a request, and nothing
else. Why no route answers is a matter of what routes there are. A route that answers in some place still
answers there when more routes are registered behind it.

* `RouteTable.exists_ofRoutes_iff` says that routes make a table if and only if no name comes twice;
* `RouteTable.dispatch_eq_error_iff` says that the order has no part in why a request is refused, and
  `Decides.append` that a route that is found stays found when more are added;
* `RouteTable.dispatch_reordered` puts these together.
-/

namespace UriRouting

/-! ## Names -/

namespace RouteTable

/-- Names are new to an index with one more name if they are new to the index and other than the name. -/
theorem forall_contains_insert_iff {index : Std.HashMap String Nat} {name : String} {place : Nat}
    {names : List String} :
    (∀ later ∈ names, (index.insert name place).contains later = false)
      ↔ name ∉ names ∧ ∀ later ∈ names, index.contains later = false := by
  simp only [Std.HashMap.contains_insert, Bool.or_eq_false_iff, beq_eq_false_iff_ne]
  constructor
  · intro h
    exact ⟨fun hmem => (h name hmem).1 rfl, fun later hlater => (h later hlater).2⟩
  · rintro ⟨hfresh, h⟩ later hlater
    exact ⟨fun heq => hfresh (heq ▸ hlater), h later hlater⟩

/-- Names are indexed if none comes twice or is in the index. -/
theorem exists_indexNames_iff {routes : List Route} {index : Std.HashMap String Nat} {place : Nat} :
    (∃ byName, indexNames index place routes = .ok byName)
      ↔ (routes.filterMap (·.name)).Nodup
        ∧ ∀ name ∈ routes.filterMap (·.name), index.contains name = false := by
  induction routes generalizing index place with
  | nil => simp [indexNames]
  | cons route routes ih =>
    rw [indexNames, List.filterMap_cons]
    cases hname : route.name with
    | none => exact ih
    | some name =>
      simp only [List.nodup_cons, List.forall_mem_cons]
      by_cases hcontains : index.contains name
      · simp [hcontains]
      · have hfree : index.contains name = false := by simpa using hcontains
        rw [if_neg hcontains, ih, forall_contains_insert_iff]
        constructor
        · rintro ⟨hnodup, hfresh, hlater⟩
          exact ⟨⟨hfresh, hnodup⟩, hfree, hlater⟩
        · rintro ⟨⟨hfresh, hnodup⟩, -, hlater⟩
          exact ⟨hnodup, hfresh, hlater⟩

/-- Routes make a table if and only if no name comes twice. -/
theorem exists_ofRoutes_iff {routes : List Route} :
    (∃ table, ofRoutes routes = .ok table) ↔ (routes.filterMap (·.name)).Nodup := by
  have hindex : (∃ table, ofRoutes routes = .ok table)
      ↔ ∃ byName, indexNames {} 0 routes = .ok byName := by
    rw [ofRoutes]
    cases indexNames {} 0 routes <;> simp [Except.map]
  rw [hindex, exists_indexNames_iff]
  simp

end RouteTable

/-! ## Answers -/

/-- A route that is found is found with more routes behind it. -/
theorem Decides.append {routes : List Route} {request : Request} {found : RouteMatch}
    (h : Decides routes request (.ok found)) (more : List Route) :
    Decides (routes ++ more) request (.ok found) := by
  cases h with
  | @found before after route _ hroutes hanswers hbefore =>
    have hlonger : routes ++ more = before ++ route :: (after ++ more) := by
      rw [hroutes, List.append_assoc, List.cons_append]
    exact .found hlonger hanswers hbefore

/-! ## Tables -/

/-- A name does not change what else a declaration makes. -/
theorem Declaration.compile_named {book : RuleBook} {declaration : Declaration} {route : Route}
    (h : declaration.compile book = .ok route) (name : String) :
    (declaration.named name).compile book = .ok { route with name := some name } := by
  obtain ⟨action, template, haction, htemplate, rfl⟩ := Declaration.compile_eq_ok_iff.1 h
  exact Declaration.compile_eq_ok_iff.2 ⟨action, template, haction, htemplate, rfl⟩

namespace RouteTable

variable {routes others : List Route} {table reordered : RouteTable}

/-- Tables with the same routes refuse the same requests for the same reason. -/
theorem dispatch_eq_error_iff (htable : ofRoutes routes = .ok table)
    (hreordered : ofRoutes others = .ok reordered) (hperm : others.Perm routes) (request : Request)
    (e : RequestError) : reordered.dispatch request = .error e ↔ table.dispatch request = .error e := by
  rw [dispatch_eq_iff htable, dispatch_eq_iff hreordered]
  constructor
  · intro h
    exact (Indistinct.refl others request).decides_error (fun route => hperm.symm.mem_iff) h
  · intro h
    exact (Indistinct.refl routes request).decides_error (fun route => hperm.mem_iff) h

theorem exists_ok_iff_forall_ne_error {ε α : Type} {result : Except ε α} :
    (∃ a, result = .ok a) ↔ ∀ e, result ≠ .error e := by
  cases result <;> simp

/-- Routes with distinct names make a table in whatever order they come. In another order they answer the
same requests, and refuse the others for the same reason. A route that is found is found with the same
values when more routes are registered behind. -/
theorem dispatch_reordered (hnames : (routes.filterMap (·.name)).Nodup) :
    ∃ table, ofRoutes routes = .ok table
      ∧ (∀ others, others.Perm routes → ∃ reordered, ofRoutes others = .ok reordered
        ∧ ∀ request, ((∃ found, reordered.dispatch request = .ok found)
            ↔ ∃ found, table.dispatch request = .ok found)
          ∧ ∀ e, reordered.dispatch request = .error e ↔ table.dispatch request = .error e)
      ∧ ∀ more, ((routes ++ more).filterMap (·.name)).Nodup →
          ∃ longer, ofRoutes (routes ++ more) = .ok longer
            ∧ ∀ request found, table.dispatch request = .ok found → longer.dispatch request = .ok found := by
  obtain ⟨table, htable⟩ := exists_ofRoutes_iff.2 hnames
  refine ⟨table, htable, ?_, ?_⟩
  · intro others hperm
    have hothers : (others.filterMap (·.name)).Nodup := (hperm.filterMap _).nodup_iff.2 hnames
    obtain ⟨reordered, hreordered⟩ := exists_ofRoutes_iff.2 hothers
    refine ⟨reordered, hreordered, ?_⟩
    intro request
    have herrors := dispatch_eq_error_iff htable hreordered hperm request
    refine ⟨?_, herrors⟩
    rw [exists_ok_iff_forall_ne_error, exists_ok_iff_forall_ne_error]
    exact forall_congr' fun e => not_congr (herrors e)
  · intro more hmore
    obtain ⟨longer, hlonger⟩ := exists_ofRoutes_iff.2 hmore
    refine ⟨longer, hlonger, ?_⟩
    intro request found hfound
    rw [dispatch_eq_iff htable] at hfound
    rw [dispatch_eq_iff hlonger]
    exact hfound.append more

/-- Of two routes that answer the same requests, the one that is registered first is found. -/
theorem dispatch_reordered_pair : ∃ first second single table reordered,
    (((Declaration.ofPath ["GET"] "/a").dispatchingTo (.handler "show")).named "r").compile .standard
      = .ok first
    ∧ (((Declaration.ofPath ["GET"] "/a").dispatchingTo (.handler "show")).named "s").compile .standard
      = .ok second
    ∧ ofRoutes [first] = .ok single ∧ ofRoutes [first, second] = .ok table
    ∧ ofRoutes [second, first] = .ok reordered
    ∧ single.dispatch ⟨"GET", "", "/a", []⟩ = .ok ⟨0, first, []⟩
    ∧ table.dispatch ⟨"GET", "", "/a", []⟩ = .ok ⟨0, first, []⟩
    ∧ reordered.dispatch ⟨"GET", "", "/a", []⟩ = .ok ⟨0, second, []⟩
    ∧ ∀ request, ((∃ found, reordered.dispatch request = .ok found)
        ↔ ∃ found, table.dispatch request = .ok found)
      ∧ ∀ e, reordered.dispatch request = .error e ↔ table.dispatch request = .error e := by
  obtain ⟨route, _, hroute, -, hmethods, hheaders, hextract⟩ := exists_route_literal ["GET"]
  have hanswers : ∀ name : Option String,
      ({ route with name } : Route).Answers ⟨"GET", "", "/a", []⟩ [] := by
    intro name
    refine ⟨?_, hextract, by simp [hheaders]⟩
    simp [hmethods, show ["GET"].eraseDups = ["GET"] from rfl]
  obtain ⟨single, hsingle, -, hlonger⟩ :=
    @dispatch_reordered [{ route with name := some "r" }] (by simp)
  obtain ⟨table, htable, hkeeps⟩ := hlonger [{ route with name := some "s" }] (by simp)
  obtain ⟨same, hsame, hothers, -⟩ :=
    @dispatch_reordered [{ route with name := some "r" }, { route with name := some "s" }] (by simp)
  obtain rfl : same = table := Except.ok.inj (hsame.symm.trans htable)
  obtain ⟨reordered, hreordered, hdispatch⟩ := hothers _ (.swap _ _ _)
  have hfound := dispatch_eq_of_head hsingle (hanswers (some "r"))
  have hother := dispatch_eq_of_head hreordered (hanswers (some "s"))
  exact ⟨_, _, single, same, reordered, Declaration.compile_named hroute "r",
    Declaration.compile_named hroute "s", hsingle, htable, hreordered, hfound, hkeeps _ _ hfound, hother,
    hdispatch⟩

end RouteTable

end UriRouting
