import Std.Data.HashMap
import UriRouting.Declaration
import UriRouting.Event
import UriRouting.Template.Generation
/-!
# Route tables

A route table holds routes in the order in which they are tried, with an index by method and an
index by name. No name comes twice. Tables are equal when their routes are: the indices follow from
the routes.
-/

namespace UriRouting

/-- Routes in order, with their indices. -/
structure RouteTable where
  /-- The routes, in registration order. -/
  routes : List Route := []
  /-- The places of the routes of each method, in registration order. -/
  byMethod : Std.HashMap String (List Nat) := {}
  /-- The place of the route of each name. -/
  byName : Std.HashMap String Nat := {}

namespace RouteTable

instance : BEq RouteTable := ⟨fun a b => a.routes == b.routes⟩

/-- The table without routes. -/
def empty : RouteTable := {}

/-! ## Indices -/

/-- Adds a route's place under one of its methods. -/
def addMethod (place : Nat) (index : Std.HashMap String (List Nat)) (method : String) :
    Std.HashMap String (List Nat) :=
  index.insert method (index.getD method [] ++ [place])

/-- The index by method of the routes from a place on. -/
def indexMethods (index : Std.HashMap String (List Nat)) (place : Nat) :
    List Route → Std.HashMap String (List Nat)
  | [] => index
  | route :: rest => indexMethods (route.methods.foldl (addMethod place) index) (place + 1) rest

/-- The index by name of the routes from a place on; a name that comes again is reported. -/
def indexNames (index : Std.HashMap String Nat) (place : Nat) :
    List Route → Except DeclarationError (Std.HashMap String Nat)
  | [] => .ok index
  | route :: rest =>
    match route.name with
    | none => indexNames index (place + 1) rest
    | some name =>
      if index.contains name then .error (.duplicateRoute name)
      else indexNames (index.insert name place) (place + 1) rest

/-- The table of some routes, in their order. -/
def ofRoutes (routes : List Route) : Except DeclarationError RouteTable :=
  (indexNames {} 0 routes).map fun byName => ⟨routes, indexMethods {} 0 routes, byName⟩

/-- A table consists of the routes that it was made of, and their indices. -/
theorem exists_of_ofRoutes_eq_ok {routes : List Route} {table : RouteTable}
    (h : ofRoutes routes = .ok table) : ∃ byName, indexNames {} 0 routes = .ok byName
      ∧ table = ⟨routes, indexMethods {} 0 routes, byName⟩ := by
  rw [ofRoutes] at h
  cases hnames : indexNames {} 0 routes with
  | error e =>
    rw [hnames] at h
    cases h
  | ok byName =>
    rw [hnames] at h
    cases h
    exact ⟨byName, rfl, rfl⟩

/-- A table has the routes that it was made of, and their index by method. -/
theorem ofRoutes_eq_ok {routes : List Route} {table : RouteTable} (h : ofRoutes routes = .ok table) :
    table.routes = routes ∧ table.byMethod = indexMethods {} 0 routes := by
  obtain ⟨byName, -, rfl⟩ := exists_of_ofRoutes_eq_ok h
  exact ⟨rfl, rfl⟩

/-! ## Access -/

/-- The number of routes. -/
def size (table : RouteTable) : Nat :=
  table.routes.length

/-- Whether there is no route. -/
def isEmpty (table : RouteTable) : Bool :=
  table.routes.isEmpty

/-- The places of the routes that accept a method, in registration order. -/
def placesFor (table : RouteTable) (method : String) : List Nat :=
  table.byMethod.getD method []

/-- The routes that accept a method, with their places, in registration order. -/
def routesFor (table : RouteTable) (method : String) : List (Nat × Route) :=
  (table.placesFor method).filterMap fun place => (table.routes[place]?).map (place, ·)

/-- The route of a name, with its place. -/
def named (table : RouteTable) (name : String) : Except GenerationError (Nat × Route) :=
  match table.byName[name]? with
  | none => .error (.unknownRoute name)
  | some place =>
    match table.routes[place]? with
    | none => .error (.unknownRoute name)
    | some route => .ok (place, route)

/-! ## Building -/

/-- A result together with the events on the way to it. -/
structure Report (α : Type) where
  /-- The result. -/
  result : α
  /-- The events, in order. -/
  events : List Event

/-- The event of a table that was built. -/
def builtEvent (table : RouteTable) : Event :=
  .tableBuilt table.size table.byMethod.size table.byName.size

/-- The event of a template that was compiled. -/
def compiledEvent (template : Template) : Event :=
  .templateCompiled template.pattern.source template.vars.length template.host.isSome

/-- Builds a table from declarations and reports the events. -/
def reportBuild (book : RuleBook) (declarations : List Declaration) :
    Report (Except DeclarationError RouteTable) :=
  let (routes, failure) := Declaration.compileAll book declarations
  let compiled := routes.map fun route => compiledEvent route.template
  match failure with
  | some e => ⟨.error e, compiled⟩
  | none =>
    match ofRoutes routes with
    | .error e => ⟨.error e, compiled⟩
    | .ok table => ⟨.ok table, compiled ++ [table.builtEvent]⟩

/-- The table of some declarations. The first declaration that makes no route is reported; only then
the names of the routes count. -/
def build (book : RuleBook) (declarations : List Declaration) : Except DeclarationError RouteTable :=
  (reportBuild book declarations).result

end RouteTable

end UriRouting
