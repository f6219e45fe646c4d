import UriRouting.RouteTable
import UriRouting.Proofs.Template.Resolved
/-!
# Building with another rule book

Declarations that make a table with one rule book can be built with another. Their templates, patterns
and names stay what they are; only the variables are made anew, at the same sites. So the other book
makes a table of them just when it makes every rule that a variable calls for, and every default
satisfies the rules of its variable.

Main statements: `Declaration.compile_of_compile` and `RouteTable.exists_build_iff`.
-/

namespace UriRouting

open UriRouting.Template (Resolves Satisfies)

/-! ## Results of lists -/

/-- A result put in front of those of a list; the first failure counts. -/
def consResult {ε α : Type} (first : Except ε α) (rest : Except ε (List α)) : Except ε (List α) :=
  match first with
  | .error e => .error e
  | .ok a => rest.map (a :: ·)

theorem exists_map_eq_ok_iff {ε α β : Type} {f : α → β} {x : Except ε α} :
    (∃ b, x.map f = .ok b) ↔ ∃ a, x = .ok a := by
  cases x <;> simp [Except.map]

/-- A list is made if each member is. -/
theorem exists_consResult_iff {ε α : Type} {first : Except ε α} {rest : Except ε (List α)} :
    (∃ as, consResult first rest = .ok as) ↔ (∃ a, first = .ok a) ∧ ∃ as, rest = .ok as := by
  cases first with
  | error e => simp [consResult]
  | ok a => simp [consResult, exists_map_eq_ok_iff]

theorem consResult_eq_ok {ε α : Type} {first : Except ε α} {rest : Except ε (List α)} {as : List α}
    (h : consResult first rest = .ok as) :
    ∃ a more, as = a :: more ∧ first = .ok a ∧ rest = .ok more := by
  cases first with
  | error e => cases h
  | ok a =>
    obtain ⟨more, hmore, rfl⟩ := exists_of_map_eq_ok h
    exact ⟨a, more, rfl, rfl, hmore⟩

theorem Template.compileSites_cons (book : RuleBook) (seen : List String) (site : Site)
    (places : List Site) :
    compileSites book seen (site :: places)
      = consResult (compileSite book seen site) (compileSites book (site.name :: seen) places) := by
  rw [compileSites]
  cases compileSite book seen site <;> rfl

/-! ## Routes -/

namespace Declaration

/-- The routes of some declarations, if each makes one. -/
def compileRoutes (book : RuleBook) : List Declaration → Except DeclarationError (List Route)
  | [] => .ok []
  | declaration :: rest => consResult (declaration.compile book) (compileRoutes book rest)

theorem compileRoutes_eq (book : RuleBook) (declarations : List Declaration) :
    compileRoutes book declarations =
      match compileAll book declarations with
      | (routes, none) => .ok routes
      | (_, some e) => .error e := by
  induction declarations with
  | nil => rfl
  | cons declaration rest ih =>
    rw [compileRoutes, compileAll]
    cases declaration.compile book with
    | error e => rfl
    | ok route =>
      simp only
      rw [ih]
      generalize compileAll book rest = compiled
      obtain ⟨routes, _ | e⟩ := compiled <;> rfl

/-- The book makes the declarations the routes, one for one. -/
abbrev Make (book : RuleBook) (declarations : List Declaration) (routes : List Route) : Prop :=
  List.Forall₂ (fun declaration route => declaration.compile book = .ok route) declarations routes

theorem compileRoutes_eq_ok {book : RuleBook} {declarations : List Declaration}
    {routes : List Route} (h : compileRoutes book declarations = .ok routes) :
    Make book declarations routes := by
  induction declarations generalizing routes with
  | nil =>
    cases h
    exact .nil
  | cons declaration declarations ih =>
    obtain ⟨route, rest, rfl, hroute, hrest⟩ := consResult_eq_ok h
    exact .cons hroute (ih hrest)

/-- Routes have the names of their declarations. -/
theorem Make.map_name {book : RuleBook} {declarations : List Declaration} {routes : List Route}
    (h : Make book declarations routes) : routes.map (·.name) = declarations.map (·.name) := by
  induction h with
  | nil => rfl
  | cons hroute _ ih =>
    obtain ⟨_, _, _, _, rfl⟩ := compile_eq_ok_iff.1 hroute
    rw [List.map_cons, List.map_cons, ih]

variable {saver : RuleBook} {declaration : Declaration} {declarations : List Declaration}
variable {route : Route} {routes : List Route}

/-- The variables of a route stand at sites of different names. -/
theorem nodup_sites (h : declaration.compile saver = .ok route) :
    ((route.template.vars.map (·.site)).map (·.name)).Nodup := by
  obtain ⟨action, template, -, htemplate, rfl⟩ := compile_eq_ok_iff.1 h
  have hvars := (Template.compile_eq_ok htemplate).2.2.vars
  rw [Template.map_site_of_compileSites hvars]
  exact (Template.names_of_compileSites hvars).2.1

/-- A declaration that makes a route with one book makes it with another but for the variables, which
the other book makes at the same sites. -/
theorem compile_of_compile (h : declaration.compile saver = .ok route) (book : RuleBook) :
    declaration.compile book
      = (Template.compileSites book [] (route.template.vars.map (·.site))).map route.withVars := by
  obtain ⟨action, template, haction, htemplate, rfl⟩ := compile_eq_ok_iff.1 h
  obtain ⟨htext, hhost, hcompiled⟩ := Template.compile_eq_ok htemplate
  have hpath : Tree.parse (Template.stripSlashes declaration.path) = .ok template.path.tree := by
    rw [← htext]
    exact hcompiled.path
  have hsites : template.vars.map (·.site)
      = Template.sitesIn template.path.tree (template.host.map (·.tree)) :=
    (Template.map_site_of_compileSites hcompiled.vars).trans template.allSites_eq_sitesIn
  have hpattern : Pattern.ofSource
      (Template.patternSource template.path.tree (template.host.map (·.tree)))
        = .ok template.pattern :=
    hcompiled.pattern
  rw [compile, haction, ← hhost]
  simp only
  rw [Template.compile_eq_of_parse hpath hcompiled.host, hpattern, ← htext, hsites]
  cases Template.compileSites book []
    (Template.sitesIn template.path.tree (template.host.map (·.tree))) <;> rfl

/-- Declarations make routes with another book just when it makes all rules, and the defaults satisfy
them. -/
theorem exists_compileRoutes_iff (h : Make saver declarations routes) (book : RuleBook) :
    (∃ built, compileRoutes book declarations = .ok built)
      ↔ ∀ route ∈ routes, ∀ v ∈ route.template.vars, Resolves book v.calls
          ∧ ∀ text ∈ v.default, Satisfies book v.calls text := by
  induction h with
  | nil => simp [compileRoutes]
  | cons hroute _ ih =>
    rw [compileRoutes, exists_consResult_iff, ih, List.forall_mem_cons, compile_of_compile hroute,
      exists_map_eq_ok_iff, Template.exists_compileSites_iff (nodup_sites hroute) (by simp),
      List.forall_mem_map]
    rfl

end Declaration

/-! ## Types of values -/

namespace Route

/-- The types of the values of a route. -/
def types (route : Route) : List ValueType :=
  route.template.vars.map (·.type)

/-- The rules that a book makes for the variables of a route imply the types that these have. -/
def KeepsTypes (book : RuleBook) (route : Route) : Prop :=
  ∀ v ∈ route.template.vars, ∀ rules,
    Template.resolveRules book v.name v.calls = .ok rules → Template.valueType rules = v.type

end Route

theorem Template.map_type_of_compileSites {book : RuleBook} {seen : List String}
    {vars built : List Variable} (hbuilt : compileSites book seen (vars.map (·.site)) = .ok built)
    (h : ∀ v ∈ vars, ∀ rules, resolveRules book v.name v.calls = .ok rules →
      valueType rules = v.type) : built.map (·.type) = vars.map (·.type) := by
  induction vars generalizing seen built with
  | nil =>
    cases hbuilt
    rfl
  | cons v vars ih =>
    obtain ⟨hv, hvars⟩ := List.forall_mem_cons.1 h
    obtain ⟨w, rest, rfl, hw, hrest⟩ := compileSites_cons_eq_ok hbuilt
    obtain ⟨-, hrules, -, hparts⟩ := compileSite_eq_ok hw
    rw [List.map_cons, List.map_cons, ih hrest hvars, ← hv w.rules hrules, hparts]

/-- Routes made with another book have the same types, if its rules imply the same types. -/
theorem Declaration.Make.map_types {saver book : RuleBook} {declarations : List Declaration}
    {routes built : List Route} (h : Make saver declarations routes)
    (hbuilt : Make book declarations built) (hkeeps : ∀ route ∈ routes, route.KeepsTypes book) :
    built.map Route.types = routes.map Route.types := by
  induction h generalizing built with
  | nil =>
    cases hbuilt
    rfl
  | @cons declaration route declarations routes hroute _ ih =>
    obtain ⟨hkeep, hkeeps⟩ := List.forall_mem_cons.1 hkeeps
    cases hbuilt with
    | cons hanew hrest =>
      rw [compile_of_compile hroute] at hanew
      obtain ⟨vars, hvars, rfl⟩ := exists_of_map_eq_ok hanew
      rw [List.map_cons, List.map_cons, ih hrest hkeeps]
      exact congrArg (· :: _) (Template.map_type_of_compileSites hvars hkeep)

/-! ## Tables -/

namespace RouteTable

open UriRouting.Declaration

/-- Building makes the routes and then their indices. -/
theorem build_eq (book : RuleBook) (declarations : List Declaration) :
    build book declarations = (compileRoutes book declarations).bind ofRoutes := by
  rw [build, reportBuild, compileRoutes_eq]
  generalize compileAll book declarations = compiled
  obtain ⟨routes, _ | e⟩ := compiled
  · simp only [Except.bind]
    cases ofRoutes routes <;> rfl
  · rfl

theorem build_singleton {book : RuleBook} {declaration : Declaration} {route : Route}
    (h : declaration.compile book = .ok route) :
    build book [declaration] = ofRoutes [route] := by
  rw [build_eq, compileRoutes, h]
  rfl

theorem build_eq_ok_iff {book : RuleBook} {declarations : List Declaration} {table : RouteTable} :
    build book declarations = .ok table
      ↔ compileRoutes book declarations = .ok table.routes ∧ ofRoutes table.routes = .ok table := by
  rw [build_eq]
  cases compileRoutes book declarations with
  | error e => simp [Except.bind]
  | ok routes =>
    rw [Except.bind, Except.ok.injEq]
    constructor
    · intro h
      obtain rfl := (ofRoutes_eq_ok h).1
      exact ⟨rfl, h⟩
    · rintro ⟨rfl, h⟩
      exact h

/-- The index by name depends on the names only. -/
theorem indexNames_congr {routes routes' : List Route}
    (h : routes.map (·.name) = routes'.map (·.name)) (index : Std.HashMap String Nat) (place : Nat) :
    indexNames index place routes = indexNames index place routes' := by
  induction routes generalizing routes' index place with
  | nil =>
    obtain rfl := List.map_eq_nil_iff.1 h.symm
    rfl
  | cons route routes ih =>
    obtain ⟨route', routes', rfl, hname, hnames⟩ := List.map_eq_cons_iff.1 h.symm
    rw [indexNames, indexNames, show route'.name = route.name from hname]
    cases route.name with
    | none => exact ih hnames.symm _ _
    | some name => simp only [ih hnames.symm]

/-- Routes with the names of the routes of a table make a table. -/
theorem exists_ofRoutes {routes routes' : List Route} {table : RouteTable}
    (h : ofRoutes routes = .ok table) (hnames : routes'.map (·.name) = routes.map (·.name)) :
    ∃ table', ofRoutes routes' = .ok table' := by
  rw [ofRoutes] at h
  obtain ⟨byName, hindex, -⟩ := exists_of_map_eq_ok h
  rw [ofRoutes, indexNames_congr hnames, hindex]
  exact ⟨_, rfl⟩

variable {saver : RuleBook} {declarations : List Declaration} {table : RouteTable}

/-- Declarations that make a table with one book make one with another, if they make routes. -/
theorem exists_ofRoutes_of_compileRoutes {book : RuleBook} {built : List Route}
    (h : build saver declarations = .ok table)
    (hbuilt : compileRoutes book declarations = .ok built) : ∃ table', ofRoutes built = .ok table' := by
  obtain ⟨hroutes, htable⟩ := build_eq_ok_iff.1 h
  have hnames := (compileRoutes_eq_ok hbuilt).map_name
  exact exists_ofRoutes htable (hnames.trans (compileRoutes_eq_ok hroutes).map_name.symm)

/-- The declarations of a table build with another book just when it makes all rules, and the defaults
satisfy them. -/
theorem exists_build_iff (h : build saver declarations = .ok table) (book : RuleBook) :
    (∃ built, build book declarations = .ok built)
      ↔ ∀ route ∈ table.routes, ∀ v ∈ route.template.vars, Resolves book v.calls
          ∧ ∀ text ∈ v.default, Satisfies book v.calls text := by
  have hmakes := compileRoutes_eq_ok (build_eq_ok_iff.1 h).1
  rw [← exists_compileRoutes_iff hmakes book]
  constructor
  · rintro ⟨built, hbuilt⟩
    exact ⟨_, (build_eq_ok_iff.1 hbuilt).1⟩
  · rintro ⟨routes, hbuilt⟩
    obtain ⟨built, hofRoutes⟩ := exists_ofRoutes_of_compileRoutes h hbuilt
    obtain rfl := (ofRoutes_eq_ok hofRoutes).1
    exact ⟨built, build_eq_ok_iff.2 ⟨hbuilt, hofRoutes⟩⟩

end RouteTable

end UriRouting
