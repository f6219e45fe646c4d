import UriRouting.RouteTable
/-!
# Providing a route table

An application's route table comes from a cache if the cache holds one, and otherwise from the
application's registrar. What the registrar's declarations make is offered to the cache; a cache that
does not take it only costs an event. The cache and the registrar may have effects, so everything
here is stated for any monad.
-/

namespace UriRouting

/-- Why a cache does not take a route table. -/
structure CacheError where
  /-- The reason. -/
  reason : String

/-- The error in words. -/
def CacheError.message (e : CacheError) : String :=
  "failed to store route collection: " ++ e.reason

/-- A place that may hold a route table. -/
structure Cache (m : Type → Type) where
  /-- What the cache holds. -/
  get : m (Option RouteTable)
  /-- Offers a route table to the cache. -/
  set : RouteTable → m (Except CacheError Unit)

/-- What an application declares: its rules and its routes. -/
structure Registration where
  /-- The rules. -/
  book : RuleBook
  /-- The routes, in order. -/
  declarations : List Declaration

/-- A source of route tables: the application's registrar, and perhaps a cache. -/
structure Provider (m : Type → Type) where
  /-- What the application declares. -/
  registrar : m Registration
  /-- The cache, if there is one. -/
  cache : Option (Cache m)

namespace Provider

variable {m : Type → Type} [Monad m]

/-- Builds the route table of the registrar's declarations. -/
def buildTable (provider : Provider m) :
    m (RouteTable.Report (Except DeclarationError RouteTable)) := do
  let registration ← provider.registrar
  return RouteTable.reportBuild registration.book registration.declarations

/-- The events of an offer to the cache. -/
def offerEvents : Except CacheError Unit → List Event
  | .ok () => []
  | .error e => [.storeFailed e.message]

/-- Provides the route table through a cache. -/
def provideCached (provider : Provider m) (cache : Cache m) :
    m (RouteTable.Report (Except DeclarationError RouteTable)) := do
  match ← cache.get with
  | some table => return ⟨.ok table, [.cacheHit table.size]⟩
  | none =>
    let built ← provider.buildTable
    match built.result with
    | .error e => return ⟨.error e, .cacheMiss :: built.events⟩
    | .ok table =>
      let offer ← cache.set table
      return ⟨.ok table, .cacheMiss :: built.events ++ offerEvents offer⟩

/-- Provides the route table. -/
def provide (provider : Provider m) :
    m (RouteTable.Report (Except DeclarationError RouteTable)) :=
  match provider.cache with
  | some cache => provider.provideCached cache
  | none => provider.buildTable

/-- What a provider is, for diagnostics. -/
def description (provider : Provider m) : String :=
  "RouteFactory \x7b cached: " ++ toString provider.cache.isSome ++ ", .. \x7d"

end Provider

/-! ## A cache in memory -/

/-- A cache in memory: its slot, the reason why it takes nothing if that is so, and how often it was
used. -/
structure CacheSlot where
  /-- What the cache holds. -/
  held : Option RouteTable := none
  /-- Why every offer fails, if it does. -/
  refusal : Option String := none
  /-- How often the slot was looked at. -/
  gets : Nat := 0
  /-- How often something was offered. -/
  sets : Nat := 0

namespace CacheSlot

/-- What the slot holds. -/
def look {m : Type → Type} [Monad m] [MonadStateOf CacheSlot m] : m (Option RouteTable) := do
  let slot ← getThe CacheSlot
  set { slot with gets := slot.gets + 1 }
  return slot.held

/-- Offers a route table to the slot. -/
def offer {m : Type → Type} [Monad m] [MonadStateOf CacheSlot m] (table : RouteTable) :
    m (Except CacheError Unit) := do
  let slot ← getThe CacheSlot
  match slot.refusal with
  | some reason =>
    set { slot with sets := slot.sets + 1 }
    return .error ⟨reason⟩
  | none =>
    set { slot with held := some table, sets := slot.sets + 1 }
    return .ok ()

/-- The slot as a cache. -/
def cache {m : Type → Type} [Monad m] [MonadStateOf CacheSlot m] : Cache m :=
  ⟨look, offer⟩

end CacheSlot

end UriRouting
