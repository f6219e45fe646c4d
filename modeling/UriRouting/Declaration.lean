import UriRouting.Route
/-!
# Route declarations

A declaration collects what an application says about a route. It becomes a route when its templates
are compiled; until then nothing is checked.
-/

namespace UriRouting

/-- A declared route. -/
structure Declaration where
  /-- The methods, each once. -/
  methods : List String
  /-- The path template as written. -/
  path : String
  /-- The host template, if there is one. -/
  host : Option String := none
  /-- What the route dispatches to, if that has been said. -/
  action : Option Action := none
  /-- The middleware, in order. -/
  middleware : List Middleware := []
  /-- The name, if there is one. -/
  name : Option String := none
  /-- The attributes. -/
  attributes : SortedMap Value := .empty
  /-- The headers that a request must have. -/
  headers : SortedMap String := .empty

namespace Declaration

/-- A declaration for some methods and a path; a method that comes twice counts where it comes
first. -/
def ofPath (methods : List String) (path : String) : Declaration :=
  ⟨methods.eraseDups, path, none, none, [], none, .empty, .empty⟩

/-- Dispatches to an action. -/
def dispatchingTo (declaration : Declaration) (action : Action) : Declaration :=
  { declaration with action := some action }

/-- Gives the route a name. -/
def named (declaration : Declaration) (name : String) : Declaration :=
  { declaration with name := some name }

/-- Restricts the route to hosts of a template. -/
def onHost (declaration : Declaration) (host : String) : Declaration :=
  { declaration with host := some host }

/-- Adds attributes; a later one of the same name counts. -/
def withAttributes (declaration : Declaration) (attributes : List (String × Value)) : Declaration :=
  { declaration with attributes := declaration.attributes.insertMany attributes }

/-- Adds middleware behind the middleware so far. -/
def withMiddleware (declaration : Declaration) (middleware : List Middleware) : Declaration :=
  { declaration with middleware := declaration.middleware ++ middleware }

/-- Asks for a header. -/
def withHeader (declaration : Declaration) (name value : String) : Declaration :=
  { declaration with headers := declaration.headers.insert name value }

/-- The route that was declared. A missing action is reported before any template is looked at. -/
def compile (book : RuleBook) (declaration : Declaration) : Except DeclarationError Route :=
  match declaration.action with
  | none => .error (.noAction declaration.path)
  | some action =>
    (Template.compile book declaration.path declaration.host).map fun template =>
      ⟨declaration.methods, template, action, declaration.middleware, declaration.name,
        declaration.attributes, declaration.headers⟩

/-- The routes of some declarations up to the first that makes no route, and why it does not. -/
def compileAll (book : RuleBook) : List Declaration → List Route × Option DeclarationError
  | [] => ([], none)
  | declaration :: rest =>
    match declaration.compile book with
    | .error e => ([], some e)
    | .ok route =>
      let (routes, failure) := compileAll book rest
      (route :: routes, failure)

end Declaration

end UriRouting
