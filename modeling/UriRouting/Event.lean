import UriRouting.Text.Quoted
/-!
# Events

What a router reports while it works: its events have a level, a fixed message, and named fields.
-/

namespace UriRouting

/-- How important an event is. -/
inductive Level where
  | trace
  | debug
  | info
  | warn
deriving DecidableEq

/-- An event. -/
inductive Event where
  /-- A template was compiled. -/
  | templateCompiled (pattern : String) (count : Nat) (hasHost : Bool)
  /-- A route table was built. -/
  | tableBuilt (routes methods named : Nat)
  /-- The pattern of a candidate did not match. -/
  | candidateUnmatched (pattern : String)
  /-- A variable of a candidate failed a rule. -/
  | candidateRejected (pattern name slug : String)
  /-- A candidate asked for headers that are not there. -/
  | candidateUnfitHeaders (pattern : String)
  /-- A request found its route. -/
  | routeFound (method path label : String)
  /-- A request found no route. -/
  | routeMissing (method path : String)
  /-- A request found routes for other methods only. -/
  | methodRefused (method path : String) (allowed : List String)
  /-- The cache held a route table. -/
  | cacheHit (routes : Nat)
  /-- The cache held nothing. -/
  | cacheMiss
  /-- The cache did not take a route table. -/
  | storeFailed (message : String)
deriving DecidableEq

namespace Event

/-- The level of an event. -/
def level : Event → Level
  | .candidateUnmatched _ => .trace
  | .candidateRejected _ _ _ => .trace
  | .candidateUnfitHeaders _ => .trace
  | .cacheHit _ => .info
  | .cacheMiss => .info
  | .storeFailed _ => .warn
  | _ => .debug

/-- The message of an event. -/
def message : Event → String
  | .templateCompiled _ _ _ => "compiled template"
  | .tableBuilt _ _ _ => "built route collection"
  | .candidateUnmatched _ => "candidate pattern did not match"
  | .candidateRejected _ _ _ => "candidate rejected by rule"
  | .candidateUnfitHeaders _ => "candidate rejected by headers"
  | .routeFound _ _ _ => "matched route"
  | .routeMissing _ _ => "no route found"
  | .methodRefused _ _ _ => "method not allowed"
  | .cacheHit _ => "route cache hit"
  | .cacheMiss => "route cache miss, compiling routes"
  | .storeFailed _ => "could not store compiled routes"

/-- The fields of an event, in order. -/
def fields : Event → List (String × String)
  | .templateCompiled pattern count hasHost =>
    [("pattern", pattern), ("variables", toString count), ("host", toString hasHost)]
  | .tableBuilt routes methods named =>
    [("routes", toString routes), ("methods", toString methods), ("named", toString named)]
  | .candidateUnmatched pattern => [("pattern", pattern)]
  | .candidateRejected pattern name slug =>
    [("pattern", pattern), ("variable", name), ("rule", slug)]
  | .candidateUnfitHeaders pattern => [("pattern", pattern)]
  | .routeFound method path label => [("method", method), ("path", path), ("route", label)]
  | .routeMissing method path => [("method", method), ("path", path)]
  | .methodRefused method path allowed =>
    [("method", method), ("path", path), ("allowed", Text.quotedList allowed)]
  | .cacheHit routes => [("routes", toString routes)]
  | .cacheMiss => []
  | .storeFailed message => [("error", message)]

end Event

end UriRouting
