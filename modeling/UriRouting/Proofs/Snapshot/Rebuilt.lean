import UriRouting.Proofs.Dispatch.Retyped
import UriRouting.Proofs.Dispatch.OtherBook
import UriRouting.Proofs.Snapshot.Altered
/-!
# Loading with another rule book

A table that was built with one rule book may be loaded with another. Loading makes the rules again,
but takes the defaults and the types of the values as they were stored. So it succeeds just when the
other book makes all rules, while building the same declarations anew with that book also asks the
defaults to satisfy them. Where both succeed, the tables differ in nothing but the types of values,
and where a rule cannot be made, both fail at the same one.

* `Rebuilt` compares what loading makes of a part with what building makes of it, and
  `Rebuilt.cons` carries this over lists;
* `load_save_build` is the main statement.
-/

namespace UriRouting

open UriRouting.Template (Resolves Satisfies)

theorem Route.alike_withVars (route : Route) {vars vars' : List Variable}
    (h : List.Forall₂ Variable.Alike vars vars') :
    (route.withVars vars).Alike (route.withVars vars') :=
  ⟨⟨rfl, rfl, h, rfl⟩, rfl⟩

/-- Routes that are alike and whose values have the same types are the same. -/
theorem eq_of_alike_of_types {routes routes' : List Route} (h : List.Forall₂ Route.Alike routes routes')
    (htypes : routes.map Route.types = routes'.map Route.types) : routes = routes' := by
  induction h with
  | nil => rfl
  | cons hroute _ ih =>
    obtain ⟨htype, htypes⟩ := List.cons.inj htypes
    rw [hroute.eq_of_types htype, ih htypes]

namespace Snapshot

/-! ## Comparing two results -/

/-- What loading makes of a part beside what building makes of it. -/
inductive Rebuilt {α : Type} (R : α → α → Prop) :
    Except LoadError α → Except DeclarationError α → Prop where
  /-- Both make the part, and what they make is related. -/
  | ok {loaded built : α} (h : R loaded built) : Rebuilt R (.ok loaded) (.ok built)
  /-- Both fail at the same rule; building also says at which variable. -/
  | unresolved (name : Option String) (fault : RuleFault) :
      Rebuilt R (.error (.rebuild (.rule none fault))) (.error (.rule name fault))
  /-- Building fails at a default, which loading does not look at. -/
  | rejected (result : Except LoadError α) (name value : String) :
      Rebuilt R result (.error (.rejectedDefault name value))

/-- Lists are made as their members are. -/
theorem Rebuilt.cons {α : Type} {R : α → α → Prop} {x : Except LoadError α}
    {y : Except DeclarationError α} {xs : Except LoadError (List α)}
    {ys : Except DeclarationError (List α)} (h : Rebuilt R x y) (hs : Rebuilt (List.Forall₂ R) xs ys) :
    Rebuilt (List.Forall₂ R) (consResult x xs) (consResult y ys) := by
  cases h with
  | ok h =>
    cases hs with
    | ok hs => exact .ok (.cons h hs)
    | unresolved name fault => exact .unresolved name fault
    | rejected result name value => exact .rejected _ name value
  | unresolved name fault => exact .unresolved name fault
  | rejected result name value => exact .rejected _ name value

theorem Rebuilt.related {α : Type} {R : α → α → Prop} {loaded built : α}
    (h : Rebuilt R (.ok loaded) (.ok built)) : R loaded built := by
  cases h with
  | ok h => exact h

theorem Rebuilt.eq_of_rule {α : Type} {R : α → α → Prop} {x : Except LoadError α}
    {name : Option String} {fault : RuleFault} (h : Rebuilt R x (.error (.rule name fault))) :
    x = .error (.rebuild (.rule none fault)) := by
  cases h with
  | unresolved => rfl

/-- What is made of two results that compare, compares. -/
theorem Rebuilt.map {α β : Type} {R : α → α → Prop} {S : β → β → Prop} {f : α → β}
    {x : Except LoadError α} {y : Except DeclarationError α} (h : Rebuilt R x y)
    (hf : ∀ a b, R a b → S (f a) (f b)) : Rebuilt S (x.map f) (y.map f) := by
  cases h with
  | ok h => exact .ok (hf _ _ h)
  | unresolved name fault => exact .unresolved name fault
  | rejected result name value => exact .rejected _ name value

/-! ## Rules -/

variable (book : RuleBook)

/-- The rules of a variable are made again as they are made anew. -/
theorem rebuilt_rules (name : String) (calls : List RuleCall) :
    Rebuilt Eq (rebuildRules book calls) (Template.resolveRules book name calls) := by
  induction calls with
  | nil => exact .ok rfl
  | cons call calls ih =>
    rw [rebuildRules, Template.resolveRules]
    cases book.resolve call with
    | error fault => exact .unresolved (some name) fault
    | ok rule => exact ih.map fun rules rules' h => congrArg (rule :: ·) h

theorem exists_rebuildRules_iff (calls : List RuleCall) :
    (∃ rules, rebuildRules book calls = .ok rules) ↔ Resolves book calls := by
  induction calls with
  | nil => simp [rebuildRules, Resolves]
  | cons call calls ih =>
    rw [rebuildRules, Template.resolves_cons, ← ih]
    cases book.resolve call with
    | error fault => simp
    | ok rule => simp [exists_map_eq_ok_iff]

/-! ## Variables -/

/-- What loading makes of a variable. -/
def rebuildVariable (v : Variable) : Except LoadError Variable :=
  (rebuildRules book v.calls).map fun rules =>
    ⟨v.name, v.calls, rules, v.default, v.optional, v.type⟩

theorem rebuildVariables_cons (v : Variable) (vars : List Variable) :
    rebuildVariables book ((v :: vars).map storeVariable)
      = consResult (rebuildVariable book v) (rebuildVariables book (vars.map storeVariable)) := by
  have hcalls : (storeVariable v).calls = v.calls := rfl
  rw [List.map_cons, rebuildVariables, rebuildVariable, hcalls]
  cases rebuildRules book v.calls <;> rfl

/-- A variable is made again as it is made anew, but for its default and the type of its values. -/
theorem rebuilt_variable {seen : List String} {v : Variable} (hfresh : v.name ∉ seen) :
    Rebuilt Variable.Alike (rebuildVariable book v) (Template.compileSite book seen v.site) := by
  have hrules := rebuilt_rules book v.name v.calls
  -- the name is not seen again, so only the rules and the default can be refused
  have hnew : v.site.name ∉ seen := hfresh
  have hsite : Template.resolveRules book v.site.name v.site.calls
      = Template.resolveRules book v.name v.calls := rfl
  rw [rebuildVariable, Template.compileSite, if_neg (by simpa using hnew), hsite]
  generalize rebuildRules book v.calls = again at hrules ⊢
  generalize Template.resolveRules book v.name v.calls = anew at hrules ⊢
  cases hrules with
  | ok h =>
    subst h
    simp only
    split
    · exact .rejected _ _ _
    · exact .ok ⟨rfl, rfl, rfl, rfl, rfl⟩
  | unresolved name fault => exact .unresolved name fault
  | rejected result name value => exact .rejected _ name value

/-- Variables with different new names are made again as they are made anew. -/
theorem rebuilt_variables {seen : List String} {vars : List Variable}
    (hnodup : ((vars.map (·.site)).map (·.name)).Nodup)
    (hfresh : ∀ site ∈ vars.map (·.site), site.name ∉ seen) :
    Rebuilt (List.Forall₂ Variable.Alike) (rebuildVariables book (vars.map storeVariable))
      (Template.compileSites book seen (vars.map (·.site))) := by
  induction vars generalizing seen with
  | nil => exact .ok .nil
  | cons v vars ih =>
    obtain ⟨hv, hvars, hnodup⟩ := Template.fresh_cons hnodup hfresh
    rw [rebuildVariables_cons, List.map_cons, Template.compileSites_cons]
    exact (rebuilt_variable book hv).cons (ih hnodup hvars)

theorem exists_rebuildVariables_iff (vars : List Variable) :
    (∃ loaded, rebuildVariables book (vars.map storeVariable) = .ok loaded)
      ↔ ∀ v ∈ vars, Resolves book v.calls := by
  induction vars with
  | nil => simp [rebuildVariables]
  | cons v vars ih =>
    rw [rebuildVariables_cons, exists_consResult_iff, ih, List.forall_mem_cons, rebuildVariable,
      exists_map_eq_ok_iff, exists_rebuildRules_iff]

/-! ## Routes -/

theorem rebuildRoutes_cons (route : Route) (routes : List Route) :
    rebuildRoutes book ((route :: routes).map storeRoute)
      = consResult (rebuildRoute book (storeRoute route))
          (rebuildRoutes book (routes.map storeRoute)) := by
  rw [List.map_cons, rebuildRoutes]
  cases rebuildRoute book (storeRoute route) <;> rfl

/-- A route is made again as its declaration makes it anew. -/
theorem rebuilt_route {saver : RuleBook} {declaration : Declaration} {route : Route}
    (h : declaration.compile saver = .ok route) :
    Rebuilt Route.Alike (rebuildRoute book (storeRoute route)) (declaration.compile book) := by
  rw [rebuildRoute_storeRoute book (Restorable.of_compile h).pattern,
    Declaration.compile_of_compile h]
  exact (rebuilt_variables book (Declaration.nodup_sites h) (by simp)).map
    fun _ _ => route.alike_withVars

/-- Routes are made again as their declarations make them anew. -/
theorem rebuilt_routes {saver : RuleBook} {declarations : List Declaration} {routes : List Route}
    (h : Declaration.Make saver declarations routes) :
    Rebuilt (List.Forall₂ Route.Alike) (rebuildRoutes book (routes.map storeRoute))
      (Declaration.compileRoutes book declarations) := by
  induction h with
  | nil => exact .ok .nil
  | cons hroute _ ih =>
    rw [rebuildRoutes_cons, Declaration.compileRoutes]
    exact (rebuilt_route book hroute).cons ih

theorem exists_rebuildRoutes_iff {saver : RuleBook} {declarations : List Declaration}
    {routes : List Route} (h : Declaration.Make saver declarations routes) :
    (∃ loaded, rebuildRoutes book (routes.map storeRoute) = .ok loaded)
      ↔ ∀ route ∈ routes, ∀ v ∈ route.template.vars, Resolves book v.calls := by
  induction h with
  | nil => simp [rebuildRoutes]
  | cons hroute _ ih =>
    rw [rebuildRoutes_cons, exists_consResult_iff, ih, List.forall_mem_cons,
      rebuildRoute_storeRoute book (Restorable.of_compile hroute).pattern, exists_map_eq_ok_iff,
      exists_rebuildVariables_iff]

/-- Routes whose patterns are those of their texts are made again with other variables and nothing
else. -/
theorem forall₂_of_rebuildRoutes {routes loaded : List Route}
    (hpatterns : ∀ route ∈ routes,
      Pattern.ofSource route.template.pattern.source = .ok route.template.pattern)
    (hloaded : rebuildRoutes book (routes.map storeRoute) = .ok loaded) :
    List.Forall₂ (fun route again => ∃ vars,
      rebuildVariables book (route.template.vars.map storeVariable) = .ok vars
        ∧ again = route.withVars vars) routes loaded := by
  induction routes generalizing loaded with
  | nil =>
    cases hloaded
    exact .nil
  | cons route routes ih =>
    obtain ⟨hpattern, hpatterns⟩ := List.forall_mem_cons.1 hpatterns
    rw [rebuildRoutes_cons, rebuildRoute_storeRoute book hpattern] at hloaded
    cases hvars : rebuildVariables book (route.template.vars.map storeVariable) with
    | error e =>
      rw [hvars] at hloaded
      cases hloaded
    | ok vars =>
      rw [hvars] at hloaded
      obtain ⟨rest, hrest, rfl⟩ := exists_of_map_eq_ok hloaded
      exact .cons ⟨vars, hvars, rfl⟩ (ih hpatterns hrest)

/-- What is stored of routes that were made again is what was stored. -/
theorem map_storeRoute_of_rebuildRoutes {saver : RuleBook} {declarations : List Declaration}
    {routes loaded : List Route} (h : Declaration.Make saver declarations routes)
    (hloaded : rebuildRoutes book (routes.map storeRoute) = .ok loaded) :
    loaded.map storeRoute = routes.map storeRoute := by
  have hpatterns : ∀ route ∈ routes,
      Pattern.ofSource route.template.pattern.source = .ok route.template.pattern := by
    intro route hroute
    obtain ⟨declaration, -, hcompile⟩ := exists_mem_of_forall₂ h hroute
    exact (Restorable.of_compile hcompile).pattern
  have hagain := forall₂_of_rebuildRoutes book hpatterns hloaded
  clear h hpatterns hloaded
  induction hagain with
  | nil => rfl
  | @cons route again routes loaded hroute _ ih =>
    obtain ⟨vars, hvars, rfl⟩ := hroute
    have hstored : vars.map storeVariable = route.template.vars.map storeVariable :=
      (rebuildVariables_eq_ok_iff.1 hvars).1
    have hroute' : storeRoute (route.withVars vars) = storeRoute route := by
      simp only [storeRoute, Route.withVars, hstored]
    rw [List.map_cons, List.map_cons, ih, hroute']

/-! ## Tables -/

/-- Loading a snapshot makes its routes again and then their indices. -/
theorem load_save_eq {saver : RuleBook} {table : RouteTable} (h : RestorableTable saver table)
    (version : Option String)
    (hsize : (Codec.storedTable.write (storeTable table version)).length < UInt32.size) :
    load book none (save table version) =
      match rebuildRoutes book (table.routes.map storeRoute) with
      | .error e => .error e
      | .ok routes => (RouteTable.ofRoutes routes).mapError .rebuild := by
  have hcount : table.size < UInt64.size := by
    have hroutes := length_routes_le (storeTable table version)
    simp only [storeTable, List.length_map] at hroutes hsize
    exact Nat.lt_of_le_of_lt hroutes (Nat.lt_trans hsize (by decide))
  rw [load_save_eq_restore hsize]
  simp only [restore, h.misfit_storeTable version hcount]
  rfl

theorem load_save_eq_ok_iff {saver : RuleBook} {table loaded : RouteTable}
    (h : RestorableTable saver table) (version : Option String)
    (hsize : (Codec.storedTable.write (storeTable table version)).length < UInt32.size) :
    load book none (save table version) = .ok loaded
      ↔ rebuildRoutes book (table.routes.map storeRoute) = .ok loaded.routes
        ∧ RouteTable.ofRoutes loaded.routes = .ok loaded := by
  rw [load_save_eq book h version hsize]
  cases rebuildRoutes book (table.routes.map storeRoute) with
  | error e => simp
  | ok routes =>
    simp only [Except.ok.injEq]
    constructor
    · intro h
      cases htable : RouteTable.ofRoutes routes with
      | error e =>
        rw [htable] at h
        cases h
      | ok table' =>
        rw [htable] at h
        cases h
        obtain rfl := (RouteTable.ofRoutes_eq_ok htable).1
        exact ⟨rfl, htable⟩
    · rintro ⟨rfl, h⟩
      rw [h]
      rfl

/-- Routes that were made again have the names of the routes that were saved. -/
theorem map_name_of_rebuildRoutes {saver : RuleBook} {declarations : List Declaration}
    {routes loaded : List Route} (h : Declaration.Make saver declarations routes)
    (hloaded : rebuildRoutes book (routes.map storeRoute) = .ok loaded) :
    loaded.map (·.name) = routes.map (·.name) := by
  have hstored := congrArg (List.map (·.name)) (map_storeRoute_of_rebuildRoutes book h hloaded)
  rw [List.map_map, List.map_map] at hstored
  exact hstored

/-- Routes that were made again have the types of the routes that were saved. -/
theorem map_types_of_rebuildRoutes {saver : RuleBook} {declarations : List Declaration}
    {routes loaded : List Route} (h : Declaration.Make saver declarations routes)
    (hloaded : rebuildRoutes book (routes.map storeRoute) = .ok loaded) :
    loaded.map Route.types = routes.map Route.types := by
  have hstored := congrArg (List.map fun stored => stored.vars.map (·.type))
    (map_storeRoute_of_rebuildRoutes book h hloaded)
  rw [List.map_map, List.map_map] at hstored
  have htypes : ∀ route : Route, (storeRoute route).vars.map (·.type) = route.types := by
    intro route
    simp only [storeRoute, Route.types, List.map_map]
    rfl
  simpa only [Function.comp_def, htypes] using hstored

section

variable {saver : RuleBook} {declarations : List Declaration} {table : RouteTable}

theorem length_lt_of_load_save {loaded : RouteTable} {version expected : Option String}
    (h : load book expected (save table version) = .ok loaded) :
    (Codec.storedTable.write (storeTable table version)).length < UInt32.size := by
  rw [load_eq] at h
  cases hopen : openPayload (save table version) with
  | error e =>
    rw [hopen] at h
    cases h
  | ok payload => exact length_lt_of_openPayload_save hopen

/-- A snapshot loads just when its length fits in the header and all rules can be made. -/
theorem exists_load_iff (h : RouteTable.build saver declarations = .ok table)
    (version : Option String) :
    (∃ loaded, load book none (save table version) = .ok loaded)
      ↔ (Codec.storedTable.write (storeTable table version)).length < UInt32.size
        ∧ ∀ route ∈ table.routes, ∀ v ∈ route.template.vars, Resolves book v.calls := by
  obtain ⟨hroutes, htable⟩ := RouteTable.build_eq_ok_iff.1 h
  have hmakes := Declaration.compileRoutes_eq_ok hroutes
  have hload := fun loaded =>
    @load_save_eq_ok_iff book _ _ loaded (Obtainable.built h).restorableTable version
  rw [← exists_rebuildRoutes_iff book hmakes]
  constructor
  · rintro ⟨loaded, hloaded⟩
    have hsize := length_lt_of_load_save book hloaded
    exact ⟨hsize, _, ((hload loaded hsize).1 hloaded).1⟩
  · rintro ⟨hsize, routes, hloaded⟩
    obtain ⟨loaded, hofRoutes⟩ :=
      RouteTable.exists_ofRoutes htable (map_name_of_rebuildRoutes book hmakes hloaded)
    obtain rfl := (RouteTable.ofRoutes_eq_ok hofRoutes).1
    exact ⟨loaded, (hload loaded hsize).2 ⟨hloaded, hofRoutes⟩⟩

/-- Where building fails at a rule, loading fails at it too. -/
theorem load_of_build_eq_error (h : RouteTable.build saver declarations = .ok table)
    (version : Option String)
    (hsize : (Codec.storedTable.write (storeTable table version)).length < UInt32.size)
    {name : Option String} {fault : RuleFault}
    (hbuilt : RouteTable.build book declarations = .error (.rule name fault)) :
    load book none (save table version) = .error (.rebuild (.rule none fault)) := by
  obtain ⟨hroutes, htable⟩ := RouteTable.build_eq_ok_iff.1 h
  have hmakes := Declaration.compileRoutes_eq_ok hroutes
  rw [RouteTable.build_eq] at hbuilt
  cases hcompiled : Declaration.compileRoutes book declarations with
  | ok routes =>
    -- the names of the routes are not repeated, for they were not in the saved table
    obtain ⟨built, hofRoutes⟩ := RouteTable.exists_ofRoutes_of_compileRoutes h hcompiled
    rw [hcompiled, Except.bind, hofRoutes] at hbuilt
    cases hbuilt
  | error e =>
    rw [hcompiled] at hbuilt
    cases hbuilt
    have hrebuilt := rebuilt_routes book hmakes
    rw [hcompiled] at hrebuilt
    rw [load_save_eq book (Obtainable.built h).restorableTable version hsize,
      hrebuilt.eq_of_rule]

end

/-- Suppose that a table was built from declarations with one rule book, and that its snapshot is
loaded with another. Loading succeeds just when the length of the snapshot fits in its header and the
other book makes every rule that a variable calls for. Building the declarations with that book
succeeds just when it makes these rules and each default satisfies those of its variable. Where both
succeed, the tables have the same routes in the same order, but the types of values are those of the
saved table in the one and those of the other book in the other; so they give the same answers to
requests but for the types, and are the same if the rules of the other book imply the same types.
Where building fails at a rule, loading fails with the same fault. -/
theorem load_save_build {saver : RuleBook} {declarations : List Declaration} {table : RouteTable}
    (h : RouteTable.build saver declarations = .ok table) (version : Option String)
    (book : RuleBook) :
    ((∃ loaded, load book none (save table version) = .ok loaded)
      ↔ (Codec.storedTable.write (storeTable table version)).length < UInt32.size
        ∧ ∀ route ∈ table.routes, ∀ v ∈ route.template.vars, Resolves book v.calls)
    ∧ ((∃ built, RouteTable.build book declarations = .ok built)
      ↔ ∀ route ∈ table.routes, ∀ v ∈ route.template.vars, Resolves book v.calls
          ∧ ∀ text ∈ v.default, Satisfies book v.calls text)
    ∧ (∀ loaded built, load book none (save table version) = .ok loaded →
        RouteTable.build book declarations = .ok built →
        List.Forall₂ Route.Alike loaded.routes built.routes
        ∧ loaded.routes.map Route.types = table.routes.map Route.types
        ∧ (∀ request, SameAnswer request (loaded.dispatch request) (built.dispatch request))
        ∧ ((∀ route ∈ table.routes, route.KeepsTypes book) → loaded = built))
    ∧ ∀ name fault, RouteTable.build book declarations = .error (.rule name fault) →
        (Codec.storedTable.write (storeTable table version)).length < UInt32.size →
        ∃ name', load book none (save table version) = .error (.rebuild (.rule name' fault)) := by
  refine ⟨exists_load_iff book h version, RouteTable.exists_build_iff h book, ?_,
    fun name fault hbuilt hsize => ⟨none, load_of_build_eq_error book h version hsize hbuilt⟩⟩
  -- where both succeed, `rebuilt_routes` leaves only routes that are alike
  intro loaded built hloaded hbuilt
  obtain ⟨hroutes, htable⟩ := RouteTable.build_eq_ok_iff.1 h
  have hmakes := Declaration.compileRoutes_eq_ok hroutes
  obtain ⟨hloaded, hloadedTable⟩ := (load_save_eq_ok_iff book
    (Obtainable.built h).restorableTable version (length_lt_of_load_save book hloaded)).1 hloaded
  obtain ⟨hbuilt, hbuiltTable⟩ := RouteTable.build_eq_ok_iff.1 hbuilt
  have hrebuilt := rebuilt_routes book hmakes
  rw [hloaded, hbuilt] at hrebuilt
  have halike := hrebuilt.related
  refine ⟨halike, map_types_of_rebuildRoutes book hmakes hloaded,
    RouteTable.sameAnswer_dispatch hloadedTable hbuiltTable halike, ?_⟩
  intro hkeeps
  have htypes := (map_types_of_rebuildRoutes book hmakes hloaded).trans
    (hmakes.map_types (Declaration.compileRoutes_eq_ok hbuilt) hkeeps).symm
  rw [eq_of_alike_of_types halike htypes] at hloadedTable
  exact Except.ok.inj (hloadedTable.symm.trans hbuiltTable)

/-- A book in which another rule stands in the place of the rule for integers. -/
def replacing (rule : CustomRule) : RuleBook :=
  RuleBook.standard.add "int" fun _ => .ok rule

/-- A table with one route, whose integer has a default. -/
theorem exists_saved : ∃ route table,
    ((Declaration.ofPath ["GET"] "/a[/:x(int)=1]").dispatchingTo (.handler "show")).compile .standard
      = .ok route
    ∧ RouteTable.build .standard
        [(Declaration.ofPath ["GET"] "/a[/:x(int)=1]").dispatchingTo (.handler "show")] = .ok table
    ∧ table.routes = [route]
    ∧ route.template.vars = [⟨"x", [⟨"int", []⟩], [.int], some "1", true, .int⟩]
    ∧ (Codec.storedTable.write (storeTable table none)).length < UInt32.size := by
  have hparse : Tree.parse "a[/:x(int)=1]" = .ok (.sequence [.literal "a",
      .optional [.literal "/", .variable "x" [⟨"int", []⟩] (some "1")]]) := by
    cbv
    exact Template.eq_of_bind_read (by cbv)
  have hcompile := @Template.compile_of_parse .standard "/a[/:x(int)=1]" _ none
    [⟨"x", [⟨"int", []⟩], [.int], some "1", true, .int⟩]
    hparse (by rintro side ⟨⟩) (by rfl) (by decide) (by decide +kernel)
  -- the literals have no character with a meaning in patterns, which the kernel cannot compute
  have hliteral : Pattern.escape "a".toList = "a".toList := by simp [Pattern.escape, Pattern.isMeta]
  have hslash : Pattern.escape "/".toList = "/".toList := by simp [Pattern.escape, Pattern.isMeta]
  have hsource : Template.patternSource (.sequence [.literal "a",
      .optional [.literal "/", .variable "x" [⟨"int", []⟩] (some "1")]]) none
        = "^[^\\x00]*\\x00a(?:/(?P<x>[^/]+))?$" := by
    show String.ofList
      ('^' :: "[^\\x00]*".toList ++ "\\x00".toList ++ Tree.patternChars .path _ ++ ['$']) = _
    simp only [Tree.patternChars, Tree.patternCharsOf, hliteral, hslash, Side.variablePattern_eq]
    rfl
  rw [Option.map_none, Option.map_none, hsource] at hcompile
  have hroute := (@Declaration.compile_eq_ok_iff .standard
    ((Declaration.ofPath ["GET"] "/a[/:x(int)=1]").dispatchingTo (.handler "show")) _).2
      ⟨_, _, rfl, hcompile, rfl⟩
  exact ⟨_, _, hroute, (RouteTable.build_singleton hroute).trans rfl, rfl, rfl, by decide +kernel⟩

/-- With another rule in the place of the rule for integers, a default that satisfies it and a type
that it does not imply. -/
theorem load_save_build_retyped : ∃ table loaded built,
    RouteTable.build .standard
        [(Declaration.ofPath ["GET"] "/a[/:x(int)=1]").dispatchingTo (.handler "show")] = .ok table
      ∧ load (replacing ⟨"digits", Rule.int.passes⟩) none (save table none) = .ok loaded
      ∧ RouteTable.build (replacing ⟨"digits", Rule.int.passes⟩)
          [(Declaration.ofPath ["GET"] "/a[/:x(int)=1]").dispatchingTo (.handler "show")] = .ok built
      ∧ loaded.routes.map Route.types = [[.int]] ∧ built.routes.map Route.types = [[.string]]
      ∧ ∀ request, SameAnswer request (loaded.dispatch request) (built.dispatch request) := by
  obtain ⟨route, table, hroute, htable, hroutes, hvars, hsize⟩ := exists_saved
  obtain ⟨hload, hbuild, hsame, -⟩ :=
    load_save_build htable none (replacing ⟨"digits", Rule.int.passes⟩)
  have hresolve : (replacing ⟨"digits", Rule.int.passes⟩).resolve ⟨"int", []⟩
      = .ok (.custom ⟨"digits", Rule.int.passes⟩) := rfl
  have hpasses : (Rule.custom ⟨"digits", Rule.int.passes⟩).passes "1" = true := by decide
  obtain ⟨loaded, hloaded⟩ := hload.2 ⟨hsize, by simp [hroutes, hvars, Resolves, hresolve]⟩
  obtain ⟨built, hbuilt⟩ :=
    hbuild.2 (by simp [hroutes, hvars, Resolves, Satisfies, hresolve, hpasses])
  obtain ⟨-, htypes, hanswers, -⟩ := hsame loaded built hloaded hbuilt
  refine ⟨table, loaded, built, htable, hloaded, hbuilt, ?_, ?_, hanswers⟩
  · rw [htypes, hroutes, List.map_singleton, Route.types, hvars]
    rfl
  · rw [RouteTable.build_eq, Declaration.compileRoutes, Declaration.compile_of_compile hroute,
      hvars] at hbuilt
    rw [(RouteTable.ofRoutes_eq_ok hbuilt).1]
    rfl

/-- A default that does not satisfy the other book's rule is kept by loading, refused by building. -/
theorem load_save_rejected_default : ∃ table loaded,
    RouteTable.build .standard
        [(Declaration.ofPath ["GET"] "/a[/:x(int)=1]").dispatchingTo (.handler "show")] = .ok table
      ∧ load (replacing ⟨"uuidv4", Rule.uuid4.passes⟩) none (save table none) = .ok loaded
      ∧ RouteTable.build (replacing ⟨"uuidv4", Rule.uuid4.passes⟩)
          [(Declaration.ofPath ["GET"] "/a[/:x(int)=1]").dispatchingTo (.handler "show")]
        = .error (.rejectedDefault "x" "1") := by
  obtain ⟨route, table, hroute, htable, hroutes, hvars, hsize⟩ := exists_saved
  have hresolve : (replacing ⟨"uuidv4", Rule.uuid4.passes⟩).resolve ⟨"int", []⟩
      = .ok (.custom ⟨"uuidv4", Rule.uuid4.passes⟩) := rfl
  obtain ⟨loaded, hloaded⟩ := (exists_load_iff (replacing ⟨"uuidv4", Rule.uuid4.passes⟩) htable
    none).2 ⟨hsize, by simp [hroutes, hvars, Resolves, hresolve]⟩
  refine ⟨table, loaded, htable, hloaded, ?_⟩
  rw [RouteTable.build_eq, Declaration.compileRoutes, Declaration.compile_of_compile hroute, hvars]
  rfl

end Snapshot

end UriRouting
