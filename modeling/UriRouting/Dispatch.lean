import UriRouting.RouteTable
import UriRouting.Template.Extraction
/-!
# Dispatch

A request goes to the first route, in registration order, that accepts its method, whose template
matches with all rules satisfied, and whose headers are present. Where there is none, the request is
answered with the methods that would have been accepted, unless a route of its own method matched
and was then refused by a rule or a header.
-/

namespace UriRouting

/-- A request. -/
structure Request where
  /-- The method; letters count as written. -/
  method : String
  /-- The host. -/
  host : String
  /-- The path. -/
  path : String
  /-- The headers. -/
  headers : List (String × String) := []

/-- The text that templates test the request by. -/
def Request.subject (request : Request) : String :=
  Template.subject request.host request.path

/-- Why a request finds no route. -/
inductive RequestError where
  /-- There is no route for the request. -/
  | notFound
  /-- There are routes for other methods only. -/
  | methodNotAllowed (method : String) (allowed : List String)
deriving DecidableEq

namespace RequestError

/-- The error in words. -/
def message : RequestError → String
  | .notFound => "no route matches the request"
  | .methodNotAllowed method allowed =>
    "method " ++ method ++ " not allowed; allowed: " ++ ", ".intercalate allowed

/-- The status code of the answer. -/
def status : RequestError → Nat
  | .notFound => 404
  | .methodNotAllowed _ _ => 405

end RequestError

/-- A route that answers a request. -/
structure RouteMatch where
  /-- The place of the route in its table. -/
  place : Nat
  /-- The route. -/
  route : Route
  /-- The values of its variables. -/
  values : List (String × Value)

/-! ## Attempts -/

/-- What a route makes of a request. -/
inductive Verdict where
  /-- The pattern does not match. -/
  | unmatched
  /-- A rule refuses the text of a variable. -/
  | refusedByRule (name slug : String)
  /-- A header is missing. -/
  | refusedByHeaders
  /-- The route answers the request. -/
  | accepted (values : List (String × Value))

namespace Verdict

/-- The values, if the route answers. -/
def values? : Verdict → Option (List (String × Value))
  | .accepted values => some values
  | _ => none

/-- Whether the pattern matched, but the route does not answer. -/
def isRefusal : Verdict → Bool
  | .refusedByRule _ _ => true
  | .refusedByHeaders => true
  | _ => false

end Verdict

/-- What a route makes of a request. -/
def Route.judge (route : Route) (request : Request) : Verdict :=
  match route.template.extract request.subject with
  | .unmatched => .unmatched
  | .rejected name slug => .refusedByRule name slug
  | .matched values =>
    if route.headersPresent request.headers then .accepted values else .refusedByHeaders

/-- A route that was tried, and what it made of the request. -/
structure Attempt where
  /-- The place of the route in its table. -/
  place : Nat
  /-- The route. -/
  route : Route
  /-- What it made of the request. -/
  verdict : Verdict

/-- The match of an attempt that succeeded. -/
def Attempt.match? (attempt : Attempt) : Option RouteMatch :=
  attempt.verdict.values?.map fun values => ⟨attempt.place, attempt.route, values⟩

/-- Tries candidates in order, up to the first that answers. -/
def tryInOrder (request : Request) : List (Nat × Route) → List Attempt
  | [] => []
  | (place, route) :: rest =>
    match route.judge request with
    | .accepted values => [⟨place, route, .accepted values⟩]
    | verdict => ⟨place, route, verdict⟩ :: tryInOrder request rest

namespace RouteTable

/-- The candidates that are tried for a request. -/
def attempts (table : RouteTable) (request : Request) : List Attempt :=
  tryInOrder request (table.routesFor request.method)

/-- Whether the template of a route takes a request, all rules satisfied. -/
def takes (route : Route) (request : Request) : Bool :=
  match route.template.extract request.subject with
  | .matched _ => true
  | _ => false

/-- The methods of the routes that do not accept the method of a request but whose templates take
it; in ascending order, each once. -/
def allowedMethods (table : RouteTable) (request : Request) : List String :=
  let others := table.routes.filter fun route =>
    !route.accepts request.method && takes route request
  (SortedMap.ofList ((others.flatMap (·.methods)).map (·, ()))).names

/-- The answer to a request that no candidate answers. -/
def refusal (table : RouteTable) (request : Request) (attempts : List Attempt) : RequestError :=
  if attempts.any (·.verdict.isRefusal) then .notFound
  else
    match table.allowedMethods request with
    | [] => .notFound
    | allowed => .methodNotAllowed request.method allowed

/-- The answer that some attempts lead to. -/
def conclude (table : RouteTable) (request : Request) (attempts : List Attempt) :
    Except RequestError RouteMatch :=
  match attempts.findSome? (·.match?) with
  | some found => .ok found
  | none => .error (table.refusal request attempts)

/-- The route that answers a request. -/
def dispatch (table : RouteTable) (request : Request) : Except RequestError RouteMatch :=
  table.conclude request (table.attempts request)

/-! ## Events of a dispatch -/

/-- The event of an attempt. -/
def attemptEvent (request : Request) (attempt : Attempt) : Event :=
  let pattern := attempt.route.template.pattern.source
  match attempt.verdict with
  | .unmatched => .candidateUnmatched pattern
  | .refusedByRule name slug => .candidateRejected pattern name slug
  | .refusedByHeaders => .candidateUnfitHeaders pattern
  | .accepted _ => .routeFound request.method request.path attempt.route.label

/-- The event of an answer; a match has been reported with its attempt. -/
def answerEvent (request : Request) : Except RequestError RouteMatch → List Event
  | .ok _ => []
  | .error .notFound => [.routeMissing request.method request.path]
  | .error (.methodNotAllowed method allowed) => [.methodRefused method request.path allowed]

/-- Dispatches a request and reports the events. -/
def reportDispatch (table : RouteTable) (request : Request) :
    Report (Except RequestError RouteMatch) :=
  let attempts := table.attempts request
  let answer := table.conclude request attempts
  ⟨answer, attempts.map (attemptEvent request) ++ answerEvent request answer⟩

end RouteTable

end UriRouting
