import UriRouting.Template.Basic
import UriRouting.SortedMap
/-!
# Routes

A route accepts some methods, has a template for the requests it answers, and says what it
dispatches to. It may carry middleware, a name, attributes, and headers that a request must have.
-/

namespace UriRouting

/-- What a route dispatches to. -/
inductive Action where
  /-- A method of a controller. -/
  | method (controller member : String)
  /-- A handler of a given name. -/
  | handler (name : String)
deriving DecidableEq

/-- The action as one text. -/
def Action.text : Action → String
  | .method controller member => controller ++ "::" ++ member
  | .handler name => name

/-- Middleware that runs for a route. -/
structure Middleware where
  /-- The name of the middleware. -/
  name : String
  /-- Its parameters. -/
  parameters : SortedMap Value := .empty

instance : BEq Middleware := ⟨fun a b => a.name == b.name && a.parameters == b.parameters⟩

/-- A route. -/
structure Route where
  /-- The methods that the route accepts, in declared order. -/
  methods : List String
  /-- The template of its requests. -/
  template : Template
  /-- What the route dispatches to. -/
  action : Action
  /-- Its middleware, in order. -/
  middleware : List Middleware
  /-- Its name, if it has one. -/
  name : Option String
  /-- Its attributes. -/
  attributes : SortedMap Value
  /-- The headers that a request must have. -/
  headers : SortedMap String

namespace Route

/-- Equality of routes, values and templates compared as such. -/
def agrees (a b : Route) : Bool :=
  a.methods == b.methods && a.template == b.template && decide (a.action = b.action)
    && a.middleware == b.middleware && a.name == b.name && a.attributes == b.attributes
    && a.headers == b.headers

instance : BEq Route := ⟨agrees⟩

/-- Whether the route accepts a method; letters count as written. -/
def accepts (route : Route) (method : String) : Bool :=
  route.methods.contains method

/-- The value of an attribute. -/
def attribute? (route : Route) (name : String) : Option Value :=
  route.attributes.get? name

/-- What the route is called in events: its name, or else its path template. -/
def label (route : Route) : String :=
  route.name.getD route.template.path.text

/-- Whether two header names are equal; the case of ASCII letters does not count. -/
def sameHeaderName (a b : String) : Bool :=
  a.toList.map Char.toLower == b.toList.map Char.toLower

/-- Whether all headers that the route asks for are present, their values as written. -/
def headersPresent (route : Route) (headers : List (String × String)) : Bool :=
  route.headers.toList.all fun (name, value) =>
    headers.any fun (key, given) => sameHeaderName key name && given == value

end Route

end UriRouting
