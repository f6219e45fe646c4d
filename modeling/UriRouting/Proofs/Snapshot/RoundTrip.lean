import Mathlib
import UriRouting.Proofs.Template.Compiled
import UriRouting.Snapshot.Basic
/-!
# Saving and loading

A route table that was built or loaded with a rule book can be saved, and loading what was saved with
the same rule book gives the table itself: nothing of a route is lost, and no check refuses what was
written.

A route can be restored when its pattern and rules can be made again from what is stored of it and its
variables are those of its trees. Compiled routes are so, and loaded ones too, since the checks ask for
it.

Main statements: `openPayload_header`, `Restorable.of_isCompiled`, `Restorable.of_rebuildRoute` and
`load_save`.
-/

namespace UriRouting

/-- The trees of a template, the host's first. -/
def Template.trees (template : Template) : List Tree :=
  template.hostTree?.toList ++ [template.path.tree]

namespace Snapshot

/-! ## Header -/

theorem length_checksum (payload : Bytes) : (checksum payload).length = 16 := by
  rw [checksum, List.length_take, (Blake3.hash payload).length_eq]
  rfl

theorem length_header (payload : Bytes) : (header payload).length = headerSize := by
  simp [header, magic, headerSize, length_checksum]

/-- A field of a header is found behind what comes before it. -/
theorem headerField_append (before field after : Bytes) :
    headerField (before ++ (field ++ after)) before.length field.length = field := by
  rw [headerField, List.drop_left, List.take_left]

/-- A header opens its payload. -/
theorem openPayload_header {payload : Bytes} (h : payload.length < UInt32.size) :
    openPayload (header payload ++ payload) = .ok payload := by
  have hlength : ¬ (header payload ++ payload).length < headerSize := by
    rw [List.length_append, length_header]
    omega
  have hdrop : (header payload ++ payload).drop headerSize = payload :=
    List.drop_left' (length_header payload)
  have hmagic : (header payload ++ payload).take 4 = magic := rfl
  have hformat : headerField (header payload ++ payload) 4 2 = littleEndian 2 formatVersion := rfl
  have hsize : headerField (header payload ++ payload) 12 4 = littleEndian 4 payload.length := rfl
  have hhash : headerField (header payload ++ payload) 16 16 = checksum payload := by
    have hfield := headerField_append (magic ++ littleEndian 2 formatVersion
      ++ littleEndian 2 engineVersion ++ littleEndian 4 0 ++ littleEndian 4 payload.length)
      (checksum payload) payload
    rw [length_checksum, ← List.append_assoc] at hfield
    exact hfield
  have hfound : ofLittleEndian (littleEndian 2 formatVersion) = formatVersion := rfl
  have hexpected : ofLittleEndian (littleEndian 4 payload.length) = payload.length :=
    ofLittleEndian_littleEndian h
  simp only [openPayload, hdrop, hmagic, hformat, hsize, hhash, hfound, hexpected]
  rw [if_neg hlength]
  simp

/-! ## Payload -/

/-- A stored table is read back. -/
theorem readTable_write {stored : StoredTable}
    (h : (Codec.storedTable.write stored).length < UInt64.size) :
    readTable (Codec.storedTable.write stored) = .ok stored := by
  have hread := Codec.storedTable.read_write stored [] h
  rw [List.append_nil] at hread
  rw [readTable, hread]

/-- Every route takes up at least one byte. -/
theorem length_routes_le (stored : StoredTable) :
    stored.routes.length ≤ (Codec.storedTable.write stored).length := by
  have hroutes : stored.routes.length ≤ (Codec.storedRoute.list.write stored.routes).length :=
    length_le_writeList Codec.storedRoute.write_ne_nil stored.routes
  have hrest : (Codec.storedRoute.list.write stored.routes).length
      ≤ (Codec.storedTable.write stored).length := by
    simp only [Codec.storedTable, Codec.via, Codec.pair, List.length_append]
    omega
  exact Nat.le_trans hroutes hrest

/-! ## Checks -/

theorem firstRepeated_eq_none_iff {seen names : List String} :
    firstRepeated seen names = none ↔ names.Nodup ∧ ∀ name ∈ names, name ∉ seen := by
  induction names generalizing seen with
  | nil => simp [firstRepeated]
  | cons name names ih =>
    rw [firstRepeated, List.nodup_cons, List.forall_mem_cons]
    by_cases hname : name ∈ seen
    · simp [hname]
    · rw [if_neg (by simpa using hname), ih]
      constructor
      · rintro ⟨hnodup, hfresh⟩
        refine ⟨⟨fun hmem => hfresh name hmem List.mem_cons_self, hnodup⟩, hname, ?_⟩
        exact fun other hother hmem => hfresh other hother (List.mem_cons_of_mem _ hmem)
      · rintro ⟨⟨hnew, hnodup⟩, -, hfresh⟩
        refine ⟨hnodup, ?_⟩
        intro other hother hmem
        rcases List.mem_cons.1 hmem with rfl | hmem
        · exact hnew hother
        · exact hfresh other hother hmem

mutual

/-- No optional segment of a tree that was read is empty. -/
theorem optionalsFilled_of_made {source : List Char} {tree : Tree} (h : tree.Made source) :
    optionalsFilled tree = true := by
  cases tree with
  | sequence parts =>
    cases h with
    | sequence h =>
      unfold optionalsFilled
      exact allOptionalsFilled_of_made h
  | literal own => rfl
  | «variable» name calls default => rfl
  | optional parts =>
    cases h with
    | optional hne h =>
      rw [optionalsFilled, allOptionalsFilled_of_made h]
      simpa using hne

/-- No optional segment of some parts that were read is empty. -/
theorem allOptionalsFilled_of_made {source : List Char} {parts : List Tree}
    (h : ∀ part ∈ parts, part.Made source) : allOptionalsFilled parts = true := by
  cases parts with
  | nil => rfl
  | cons part parts =>
    obtain ⟨hpart, hparts⟩ := List.forall_mem_cons.1 h
    rw [allOptionalsFilled, optionalsFilled_of_made hpart, allOptionalsFilled_of_made hparts]
    rfl

end

theorem allOptionalsFilled_append (parts parts' : List Tree) :
    allOptionalsFilled (parts ++ parts')
      = (allOptionalsFilled parts && allOptionalsFilled parts') := by
  induction parts with
  | nil => rfl
  | cons part parts ih => rw [List.cons_append, allOptionalsFilled, allOptionalsFilled, ih,
      Bool.and_assoc]

/-! ## Rules -/

/-- Rules that were made for a template are made again. -/
theorem rebuildRules_of_resolveRules {book : RuleBook} {name : String} {calls : List RuleCall}
    {rules : List Rule} (h : Template.resolveRules book name calls = .ok rules) :
    rebuildRules book calls = .ok rules := by
  induction calls generalizing rules with
  | nil =>
    cases h
    rfl
  | cons call calls ih =>
    unfold Template.resolveRules at h
    split at h
    · cases h
    rename_i rule hrule
    obtain ⟨rest, hrest, rfl⟩ := exists_of_map_eq_ok h
    rw [rebuildRules, hrule, ih hrest]
    rfl

/-- Variables are made of what is stored of them, with the rules that they call for. -/
theorem rebuildVariables_eq_ok_iff {book : RuleBook} {stored : List StoredVariable}
    {vars : List Variable} :
    rebuildVariables book stored = .ok vars
      ↔ vars.map storeVariable = stored ∧ ∀ v ∈ vars, rebuildRules book v.calls = .ok v.rules := by
  induction stored generalizing vars with
  | nil =>
    rw [rebuildVariables, Except.ok.injEq, List.map_eq_nil_iff]
    constructor
    · rintro rfl
      exact ⟨rfl, List.forall_mem_nil _⟩
    · rintro ⟨rfl, -⟩
      rfl
  | cons s stored ih =>
    unfold rebuildVariables
    constructor
    · intro h
      split at h
      · cases h
      rename_i rules hrules
      obtain ⟨rest, hrest, rfl⟩ := exists_of_map_eq_ok h
      obtain ⟨hmap, hall⟩ := ih.1 hrest
      refine ⟨?_, List.forall_mem_cons.2 ⟨hrules, hall⟩⟩
      rw [List.map_cons, hmap]
      rfl
    · rintro ⟨hmap, hall⟩
      cases vars with
      | nil => cases hmap
      | cons v vars =>
        cases hmap
        obtain ⟨hrules, hall⟩ := List.forall_mem_cons.1 hall
        rw [show (storeVariable v).calls = v.calls from rfl, hrules, ih.2 ⟨rfl, hall⟩]
        rfl

/-! ## Routes -/

/-- A route that can be made again from what is stored of it. -/
structure Restorable (book : RuleBook) (route : Route) : Prop where
  /-- The pattern is that of its text. -/
  pattern : Pattern.ofSource route.template.pattern.source = .ok route.template.pattern
  /-- The rules are those that the variables call for. -/
  rules : ∀ v ∈ route.template.vars, rebuildRules book v.calls = .ok v.rules
  /-- No optional segment is empty. -/
  filled : allOptionalsFilled route.template.trees = true
  /-- The variables are those of the trees. -/
  names : Tree.variableNamesOf route.template.trees = route.template.variableNames
  /-- No name comes twice. -/
  nodup : route.template.variableNames.Nodup

theorem variableNamesOf_trees (template : Template) :
    Tree.variableNamesOf template.trees
      = Template.namesOf template.path.tree template.hostTree? := by
  rw [Template.trees, Template.namesOf]
  cases template.hostTree? <;> simp [Tree.variableNamesOf]

/-- A compiled route can be restored. -/
theorem Restorable.of_isCompiled {book : RuleBook} {route : Route}
    (h : route.template.IsCompiled book) : Restorable book route where
  pattern := by
    rw [source_of_ofSource h.pattern]
    exact h.pattern
  rules := by
    intro v hv
    exact rebuildRules_of_resolveRules (Template.rules_of_compileSites h.vars v hv).1
  filled := by
    rw [Template.trees, allOptionalsFilled_append, Bool.and_eq_true]
    constructor
    · unfold Template.hostTree?
      cases hhost : route.template.host with
      | none => rfl
      | some side =>
        have hmade := Template.made_of_parse (h.host side hhost)
        exact allOptionalsFilled_of_made (List.forall_mem_singleton.2 hmade)
    · exact allOptionalsFilled_of_made (List.forall_mem_singleton.2 (Template.made_of_parse h.path))
  names := (variableNamesOf_trees _).trans h.variableNames_eq.symm
  nodup := h.variableNames_eq ▸ h.nodup_names

/-- The host side of a stored route whose text and tree agree on whether there is a host. -/
theorem map_tree_hostSide {stored : StoredRoute}
    (h : stored.host.isSome = stored.hostTree.isSome) :
    (hostSide? stored).map (·.tree) = stored.hostTree := by
  unfold hostSide?
  cases hhost : stored.host <;> cases htree : stored.hostTree <;> simp_all

/-- What a stored route passes when nothing in it does not fit. -/
theorem routeMisfit_eq_none_iff {place : Nat} {stored : StoredRoute} :
    routeMisfit? place stored = none
      ↔ stored.testsHost = stored.hostTree.isSome ∧ stored.host.isSome = stored.hostTree.isSome
        ∧ allOptionalsFilled (stored.hostTree.toList ++ [stored.pathTree]) = true
        ∧ Tree.variableNamesOf (stored.hostTree.toList ++ [stored.pathTree])
            = stored.vars.map (·.name)
        ∧ (stored.vars.map (·.name)).Nodup := by
  have hnone : ((firstRepeated [] (stored.vars.map (·.name))).map (.duplicateVariable place)
      : Option Misfit) = none ↔ (stored.vars.map (·.name)).Nodup := by
    rw [Option.map_eq_none_iff, firstRepeated_eq_none_iff]
    simp
  simp only [routeMisfit?]
  split
  · simp_all
  split
  · simp_all
  split
  · simp_all
  split
  · simp_all
  · simp_all

/-- What is stored of a route that can be restored fits together. -/
theorem Restorable.routeMisfit {book : RuleBook} {route : Route} (h : Restorable book route)
    (place : Nat) : routeMisfit? place (storeRoute route) = none := by
  have hvars : (storeRoute route).vars.map (·.name) = route.template.variableNames := by
    simp [storeRoute, storeVariable, Template.variableNames]
  rw [routeMisfit_eq_none_iff, hvars]
  refine ⟨?_, ?_, h.filled, h.names, h.nodup⟩
  · simp [storeRoute]
  · simp [storeRoute]

/-- A route whose pattern is that of its text is made again, with the variables that are made again. -/
theorem rebuildRoute_storeRoute (book : RuleBook) {route : Route}
    (h : Pattern.ofSource route.template.pattern.source = .ok route.template.pattern) :
    rebuildRoute book (storeRoute route)
      = (rebuildVariables book (route.template.vars.map storeVariable)).map route.withVars := by
  have hpattern : Pattern.ofSource (storeRoute route).pattern = .ok route.template.pattern := h
  have hhost : hostSide? (storeRoute route) = route.template.host := by
    rw [hostSide?, storeRoute]
    cases route.template.host <;> rfl
  have hmiddleware : (storeRoute route).middleware.map
      (fun stored => (⟨stored.1, .ofList stored.2⟩ : Middleware)) = route.middleware := by
    simp [storeRoute, Function.comp_def]
  rw [rebuildRoute, hpattern]
  simp only [hhost, hmiddleware]
  simp only [storeRoute, SortedMap.ofList_toList]
  rfl

/-- A route that can be restored is made again from what is stored of it. -/
theorem Restorable.rebuildRoute_eq {book : RuleBook} {route : Route} (h : Restorable book route) :
    rebuildRoute book (storeRoute route) = .ok route := by
  rw [rebuildRoute_storeRoute book h.pattern, rebuildVariables_eq_ok_iff.2 ⟨rfl, h.rules⟩]
  rfl

/-- A route that was made from what fits together can be restored. -/
theorem Restorable.of_rebuildRoute {book : RuleBook} {place : Nat} {stored : StoredRoute}
    {route : Route} (hfit : routeMisfit? place stored = none)
    (h : rebuildRoute book stored = .ok route) : Restorable book route := by
  obtain ⟨-, hhost, hfilled, hnames, hnodup⟩ := routeMisfit_eq_none_iff.1 hfit
  unfold rebuildRoute at h
  split at h
  · cases h
  rename_i pattern hpattern
  obtain ⟨vars, hvars, rfl⟩ := exists_of_map_eq_ok h
  obtain ⟨hmap, hrules⟩ := rebuildVariables_eq_ok_iff.1 hvars
  have hstored : vars.map (·.name) = stored.vars.map (·.name) := by
    rw [← hmap, List.map_map]
    rfl
  have htree := map_tree_hostSide hhost
  constructor
  · rw [source_of_ofSource hpattern]
    exact hpattern
  · exact hrules
  · rw [Template.trees, Template.hostTree?, htree]
    exact hfilled
  · rw [Template.trees, Template.hostTree?, htree, Template.variableNames, hstored]
    exact hnames
  · rw [Template.variableNames, hstored]
    exact hnodup

/-! ## Lists of routes -/

theorem routesMisfit_storeRoute {book : RuleBook} {routes : List Route}
    (h : ∀ route ∈ routes, Restorable book route) (place : Nat) :
    routesMisfit? place (routes.map storeRoute) = none := by
  induction routes generalizing place with
  | nil => rfl
  | cons route routes ih =>
    obtain ⟨hroute, hroutes⟩ := List.forall_mem_cons.1 h
    rw [List.map_cons, routesMisfit?, hroute.routeMisfit place, Option.none_or]
    exact ih hroutes (place + 1)

theorem rebuildRoutes_storeRoute {book : RuleBook} {routes : List Route}
    (h : ∀ route ∈ routes, Restorable book route) :
    rebuildRoutes book (routes.map storeRoute) = .ok routes := by
  induction routes with
  | nil => rfl
  | cons route routes ih =>
    obtain ⟨hroute, hroutes⟩ := List.forall_mem_cons.1 h
    rw [List.map_cons, rebuildRoutes, hroute.rebuildRoute_eq, ih hroutes]
    rfl

/-- Routes that were made from what fits together can be restored. -/
theorem restorable_of_rebuildRoutes {book : RuleBook} {place : Nat} {stored : List StoredRoute}
    {routes : List Route} (hfit : routesMisfit? place stored = none)
    (h : rebuildRoutes book stored = .ok routes) : ∀ route ∈ routes, Restorable book route := by
  induction stored generalizing place routes with
  | nil =>
    cases h
    exact List.forall_mem_nil _
  | cons s stored ih =>
    rw [routesMisfit?, Option.or_eq_none_iff] at hfit
    unfold rebuildRoutes at h
    split at h
    · cases h
    rename_i route hroute
    obtain ⟨rest, hrest, rfl⟩ := exists_of_map_eq_ok h
    exact List.forall_mem_cons.2 ⟨.of_rebuildRoute hfit.1 hroute, ih hfit.2 hrest⟩

/-! ## Tables -/

/-- What loading does with the table that a payload holds. -/
def restore (book : RuleBook) (expected : Option String) (stored : StoredTable) :
    Except LoadError RouteTable :=
  if isCurrent stored expected = false then .error .staleVersion
  else
    match misfit? stored with
    | some cause => .error (.misfit cause)
    | none =>
      match rebuildRoutes book stored.routes with
      | .error e => .error e
      | .ok routes => (RouteTable.ofRoutes routes).mapError .rebuild

theorem load_eq (book : RuleBook) (expected : Option String) (bytes : Bytes) :
    load book expected bytes
      = ((openPayload bytes).bind readTable).bind (restore book expected) := by
  simp only [load, bind, Except.bind]
  cases openPayload bytes with
  | error e => rfl
  | ok payload =>
    simp only
    cases readTable payload with
    | error e => rfl
    | ok stored =>
      simp only [restore]
      cases isCurrent stored expected with
      | false => rfl
      | true =>
        simp only [Bool.not_true, Bool.false_eq_true, if_false]
        cases misfit? stored with
        | some cause => rfl
        | none =>
          simp only
          cases rebuildRoutes book stored.routes <;> rfl

/-- What is restored fits together, and has the routes that are made again and their indices. -/
theorem restore_eq_ok {book : RuleBook} {expected : Option String} {stored : StoredTable}
    {table : RouteTable} (h : restore book expected stored = .ok table) :
    misfit? stored = none ∧ rebuildRoutes book stored.routes = .ok table.routes
      ∧ RouteTable.ofRoutes table.routes = .ok table := by
  simp only [restore] at h
  split at h
  · cases h
  split at h
  · cases h
  rename_i hfit
  split at h
  · cases h
  rename_i routes hroutes
  cases htable : RouteTable.ofRoutes routes with
  | error e =>
    rw [htable] at h
    cases h
  | ok table' =>
    rw [htable] at h
    cases h
    obtain rfl := (RouteTable.ofRoutes_eq_ok htable).1
    exact ⟨hfit, hroutes, htable⟩

/-- What was saved is read as it was stored, and then restored. -/
theorem load_save_eq_restore {table : RouteTable} {version : Option String}
    (hsize : (Codec.storedTable.write (storeTable table version)).length < UInt32.size) (book : RuleBook)
    (expected : Option String) :
    load book expected (save table version) = restore book expected (storeTable table version) := by
  have hopen : openPayload (save table version) = .ok _ := openPayload_header hsize
  have hread : readTable _ = .ok (storeTable table version) :=
    readTable_write (Nat.lt_trans hsize (by decide))
  rw [load_eq, hopen, Except.bind, hread, Except.bind]

/-- A table of routes that can be restored. -/
structure RestorableTable (book : RuleBook) (table : RouteTable) : Prop where
  /-- Its routes can be restored. -/
  routes : ∀ route ∈ table.routes, Restorable book route
  /-- It has the indices of its routes. -/
  indices : RouteTable.ofRoutes table.routes = .ok table

theorem RestorableTable.of_ofRoutes {book : RuleBook} {routes : List Route} {table : RouteTable}
    (hroutes : ∀ route ∈ routes, Restorable book route)
    (h : RouteTable.ofRoutes routes = .ok table) : RestorableTable book table := by
  obtain rfl := (RouteTable.ofRoutes_eq_ok h).1
  exact ⟨hroutes, h⟩

/-- A loaded table is one of routes that can be restored. -/
theorem RestorableTable.of_load {book : RuleBook} {expected : Option String} {bytes : Bytes}
    {table : RouteTable} (h : load book expected bytes = .ok table) : RestorableTable book table := by
  rw [load_eq] at h
  cases hread : (openPayload bytes).bind readTable with
  | error e =>
    rw [hread] at h
    cases h
  | ok stored =>
    rw [hread] at h
    obtain ⟨hfit, hroutes, htable⟩ := restore_eq_ok h
    have hmisfits : routesMisfit? 0 stored.routes = none := by
      unfold misfit? at hfit
      split at hfit
      · cases hfit
      · exact hfit
    exact ⟨restorable_of_rebuildRoutes hmisfits hroutes, htable⟩

/-- What is stored of a table of routes that can be restored fits together. -/
theorem RestorableTable.misfit_storeTable {book : RuleBook} {table : RouteTable}
    (h : RestorableTable book table) (version : Option String) (hsize : table.size < UInt64.size) :
    misfit? (storeTable table version) = none := by
  have hcount : (storeTable table version).routeCount.toNat = table.size :=
    UInt64.toNat_ofNat_of_lt' hsize
  have hlength : (storeTable table version).routes.length = table.size := by
    simp [storeTable, RouteTable.size]
  rw [misfit?, hcount, hlength, if_neg (not_not.2 rfl)]
  exact routesMisfit_storeRoute h.routes 0

/-- What was stored of a table of routes that can be restored is that table, for a loader that expects
its version. -/
theorem RestorableTable.restore_storeTable {book : RuleBook} {table : RouteTable}
    (h : RestorableTable book table) {version expected : Option String}
    (hsize : table.size < UInt64.size) :
    restore book expected (storeTable table version)
      = if isCurrent (storeTable table version) expected = false then .error .staleVersion
        else .ok table := by
  have hfit := h.misfit_storeTable version hsize
  have hroutes : rebuildRoutes book (storeTable table version).routes = .ok table.routes :=
    rebuildRoutes_storeRoute h.routes
  simp only [restore, hfit, hroutes, h.indices]
  rfl

/-! ## Tables of an application -/

/-- A route that an application can have with a rule book. -/
inductive ObtainableRoute (book : RuleBook) : Route → Prop where
  /-- A route that was declared. -/
  | declared {declaration : Declaration} {route : Route} (h : declaration.compile book = .ok route) :
      ObtainableRoute book route
  /-- A route of a table that was loaded. -/
  | loaded {expected : Option String} {bytes : Bytes} {table : RouteTable} {route : Route}
      (h : load book expected bytes = .ok table) (hroute : route ∈ table.routes) :
      ObtainableRoute book route

/-- A route table that an application can have with a rule book. -/
inductive Obtainable (book : RuleBook) : RouteTable → Prop where
  /-- A table that was built from declarations. -/
  | built {declarations : List Declaration} {table : RouteTable}
      (h : RouteTable.build book declarations = .ok table) : Obtainable book table
  /-- A table of routes at hand. -/
  | gathered {routes : List Route} {table : RouteTable}
      (hroutes : ∀ route ∈ routes, ObtainableRoute book route)
      (h : RouteTable.ofRoutes routes = .ok table) : Obtainable book table
  /-- A table that was loaded. -/
  | loaded {expected : Option String} {bytes : Bytes} {table : RouteTable}
      (h : load book expected bytes = .ok table) : Obtainable book table

theorem Restorable.of_compile {book : RuleBook} {declaration : Declaration} {route : Route}
    (h : declaration.compile book = .ok route) : Restorable book route := by
  obtain ⟨action, template, -, htemplate, rfl⟩ := Declaration.compile_eq_ok_iff.1 h
  exact .of_isCompiled (Template.compile_eq_ok htemplate).2.2

theorem ObtainableRoute.restorable {book : RuleBook} {route : Route}
    (h : ObtainableRoute book route) : Restorable book route := by
  cases h with
  | declared h => exact .of_compile h
  | loaded h hroute => exact (RestorableTable.of_load h).routes route hroute

/-- The routes of declarations can be restored. -/
theorem restorable_of_compileAll (book : RuleBook) (declarations : List Declaration) :
    ∀ route ∈ (Declaration.compileAll book declarations).1, Restorable book route := by
  induction declarations with
  | nil => exact List.forall_mem_nil _
  | cons declaration declarations ih =>
    unfold Declaration.compileAll
    cases hroute : declaration.compile book with
    | error e => exact List.forall_mem_nil _
    | ok route => exact List.forall_mem_cons.2 ⟨.of_compile hroute, ih⟩

/-- A table that was built is the table of the routes of its declarations. -/
theorem ofRoutes_of_build {book : RuleBook} {declarations : List Declaration} {table : RouteTable}
    (h : RouteTable.build book declarations = .ok table) :
    RouteTable.ofRoutes (Declaration.compileAll book declarations).1 = .ok table := by
  rw [RouteTable.build, RouteTable.reportBuild] at h
  generalize Declaration.compileAll book declarations = compiled at h ⊢
  obtain ⟨routes, failure⟩ := compiled
  cases failure with
  | some e => cases h
  | none =>
    simp only at h
    split at h
    · cases h
    · rename_i table' htable
      rw [htable]
      exact h

/-- An application only has tables of routes that can be restored. -/
theorem Obtainable.restorableTable {book : RuleBook} {table : RouteTable}
    (h : Obtainable book table) : RestorableTable book table := by
  cases h with
  | built h => exact .of_ofRoutes (restorable_of_compileAll book _) (ofRoutes_of_build h)
  | gathered hroutes h => exact .of_ofRoutes (fun route hroute => (hroutes route hroute).restorable) h
  | loaded h => exact .of_load h

/-! ## Round trip -/

/-- A saved table is one for an expected version if nothing is expected or the version is the one it
was saved for, provided that the hash tells the two versions apart. -/
theorem isCurrent_storeTable (table : RouteTable) {version expected : Option String}
    (hdigest : ∀ a ∈ version, ∀ b ∈ expected, versionDigest a = versionDigest b → a = b) :
    isCurrent (storeTable table version) expected = true ↔ expected = none ∨ expected = version := by
  cases expected with
  | none => simp [isCurrent]
  | some b =>
    rw [isCurrent, beq_iff_eq]
    cases version with
    | none => simp [storeTable]
    | some a =>
      have hiff : versionDigest a = versionDigest b ↔ b = a := by
        constructor
        · intro heq
          exact (hdigest a rfl b rfl heq).symm
        · rintro rfl
          rfl
      simp [storeTable, hiff]

/-- A table that was built or loaded with a rule book is loaded as it was saved, with the same routes,
rules and indices. A loader that expects another version than the one it was saved for refuses it. -/
theorem load_save {book : RuleBook} {table : RouteTable} (h : Obtainable book table)
    (version expected : Option String)
    (hsize : (Codec.storedTable.write (storeTable table version)).length < UInt32.size)
    (hdigest : ∀ a ∈ version, ∀ b ∈ expected, versionDigest a = versionDigest b → a = b) :
    load book expected (save table version)
      = if expected = none ∨ expected = version then .ok table else .error .staleVersion := by
  have hopen : openPayload (save table version) = .ok _ := openPayload_header hsize
  have hread : readTable _ = .ok (storeTable table version) :=
    readTable_write (Nat.lt_trans hsize (by decide))
  have hcount : table.size < UInt64.size := by
    have hroutes := length_routes_le (storeTable table version)
    simp only [storeTable, List.length_map] at hroutes hsize
    exact Nat.lt_of_le_of_lt hroutes (Nat.lt_trans hsize (by decide))
  rw [load_eq, hopen, Except.bind, hread, Except.bind,
    h.restorableTable.restore_storeTable hcount]
  by_cases hcurrent : expected = none ∨ expected = version
  · rw [(isCurrent_storeTable table hdigest).2 hcurrent, if_pos hcurrent]
    rfl
  · have hstale : isCurrent (storeTable table version) expected = false :=
      Bool.eq_false_iff.2 fun htrue => hcurrent ((isCurrent_storeTable table hdigest).1 htrue)
    rw [if_pos hstale, if_neg hcurrent]

theorem load_save_versions : ∃ route table,
    ((Declaration.ofPath ["GET"] "/a/:x[/:y=7]").dispatchingTo (.handler "show")).compile .standard
      = .ok route
    ∧ RouteTable.ofRoutes [route] = .ok table
    ∧ load .standard (some "1") (save table (some "1")) = .ok table
    ∧ load .standard (some "2") (save table (some "1")) = .error .staleVersion := by
  have hcompile := @Template.compile_of_parse .standard "/a/:x[/:y=7]"
    (.sequence [.literal "a/", .variable "x" [] none,
      .optional [.literal "/", .variable "y" [] (some "7")]])
    none [⟨"x", [], [], none, false, .string⟩, ⟨"y", [], [], some "7", true, .string⟩]
    (by cbv) (by rintro side ⟨⟩) (by cbv) (by decide) (by decide +kernel)
  -- the literals have no character with a meaning in patterns, which the kernel cannot compute
  have hliteral : Pattern.escape "a/".toList = "a/".toList := by simp [Pattern.escape, Pattern.isMeta]
  have hslash : Pattern.escape "/".toList = "/".toList := by simp [Pattern.escape, Pattern.isMeta]
  have hsource : Template.patternSource (.sequence [.literal "a/", .variable "x" [] none,
      .optional [.literal "/", .variable "y" [] (some "7")]]) none
        = "^[^\\x00]*\\x00a/(?P<x>[^/]+)(?:/(?P<y>[^/]+))?$" := by
    show String.ofList
      ('^' :: "[^\\x00]*".toList ++ "\\x00".toList ++ Tree.patternChars .path _ ++ ['$']) = _
    simp only [Tree.patternChars, Tree.patternCharsOf, hliteral, hslash, Side.variablePattern_eq]
    rfl
  rw [Option.map_none, Option.map_none, hsource] at hcompile
  have hroute := (@Declaration.compile_eq_ok_iff .standard
    ((Declaration.ofPath ["GET"] "/a/:x[/:y=7]").dispatchingTo (.handler "show")) _).2
      ⟨_, _, rfl, hcompile, rfl⟩
  have hroutes : ∀ route ∈ [_], ObtainableRoute .standard route :=
    List.forall_mem_singleton.2 (.declared hroute)
  have htold : versionDigest "1" ≠ versionDigest "2" := by decide +kernel
  refine ⟨_, _, hroute, rfl, ?_, ?_⟩
  · rw [load_save (.gathered hroutes rfl) _ _ (by decide +kernel) (by rintro _ ⟨⟩ _ ⟨⟩ -; rfl)]
    rfl
  · rw [load_save (.gathered hroutes rfl) _ _ (by decide +kernel)
      (by rintro _ ⟨⟩ _ ⟨⟩ heq; exact absurd heq htold)]
    rfl

end Snapshot

end UriRouting
