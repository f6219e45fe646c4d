import UriRouting.Snapshot.Stored
/-!
# Snapshots

A snapshot is a route table as bytes: a header of 32 bytes and a payload. The header names the
format and its version and holds the length of the payload and the first half of its hash, so that a
changed, shortened or extended snapshot is refused. The payload may hold the hash of the
application's version; a loader that expects another version is refused too.

Loading checks that the stored parts fit together and then makes the patterns and rules again.
-/

namespace UriRouting.Snapshot

/-! ## Errors -/

/-- Which stored parts do not fit together. -/
inductive Misfit where
  /-- Bytes follow the stored table. -/
  | trailingBytes (count : Nat)
  /-- The stored number of routes is wrong. -/
  | routeCount (stored actual : Nat)
  /-- The pattern and the trees disagree on whether there is a host. -/
  | hostFlag (place : Nat)
  /-- The texts and the trees disagree on whether there is a host. -/
  | hostTemplate (place : Nat)
  /-- An optional segment holds nothing. -/
  | emptyOptional
  /-- The variables are not those of the trees. -/
  | variableNames (place : Nat) (stored inTrees : List String)
  /-- Two variables have the same name. -/
  | duplicateVariable (place : Nat) (name : String)

/-- The misfit in words. -/
def Misfit.message : Misfit → String
  | .trailingBytes count => s!"payload has {count} trailing bytes"
  | .routeCount stored actual => s!"metadata says {stored} routes but payload has {actual}"
  | .hostFlag place => s!"route {place}: host flag disagrees with host tree"
  | .hostTemplate place => s!"route {place}: host template disagrees with host tree"
  | .emptyOptional => "empty optional segment"
  | .variableNames place stored inTrees =>
    s!"route {place}: template variables {Text.quotedList stored} do not match syntax tree {Text.quotedList inTrees}"
  | .duplicateVariable place name => s!"route {place}: duplicate variable '{name}'"

/-- Why some bytes are no snapshot to load. -/
inductive LoadError where
  /-- The bytes do not start like a snapshot. -/
  | badMagic
  /-- The snapshot has another format. -/
  | incompatibleFormat (found : Nat)
  /-- The hash does not fit the payload. -/
  | checksumMismatch
  /-- There are too few or too many bytes. -/
  | lengthMismatch (expected actual : Nat)
  /-- The snapshot was made for another version of the application. -/
  | staleVersion
  /-- The payload is no stored table. -/
  | undecodable
  /-- The stored parts do not fit together. -/
  | misfit (cause : Misfit)
  /-- A rule cannot be made again, or two routes have the same name. -/
  | rebuild (cause : DeclarationError)
  /-- A stored pattern is no pattern. -/
  | pattern (fault : Pattern.PatternFault)

/-! ## Header -/

/-- The bytes that every snapshot starts with. -/
def magic : Bytes := [0x52, 0x4D, 0x49, 0x4C]

/-- The version of the format. -/
def formatVersion : Nat := 1

/-- The version of the engine. -/
def engineVersion : Nat := 1

/-- The number of bytes in a header. -/
def headerSize : Nat := 32

/-- The error in words. -/
def LoadError.message : LoadError → String
  | .badMagic => "not a routemill snapshot: invalid magic bytes"
  | .incompatibleFormat found =>
    s!"incompatible format version: blob is v{found}, engine supports v{formatVersion}"
  | .checksumMismatch => "integrity check failed: BLAKE3 checksum mismatch"
  | .lengthMismatch expected actual =>
    s!"payload length mismatch: expected {expected} bytes, got {actual}"
  | .staleVersion => "snapshot was built for a different application version"
  | .undecodable => "failed to decode payload"
  | .misfit cause => s!"validation failed: {cause.message}"
  | .rebuild cause => s!"failed to rebuild routes: {cause.message}"
  | .pattern fault => s!"failed to rebuild match pattern: {fault.message}"

/-- The half of a payload's hash that the header holds. -/
def checksum (payload : Bytes) : Bytes :=
  (Blake3.hash payload).bytes.take 16

/-- The header of a payload. -/
def header (payload : Bytes) : Bytes :=
  magic ++ littleEndian 2 formatVersion ++ littleEndian 2 engineVersion ++ littleEndian 4 0
    ++ littleEndian 4 payload.length ++ checksum payload

/-- The bytes of a field of a header. -/
def headerField (bytes : Bytes) (start size : Nat) : Bytes :=
  (bytes.drop start).take size

/-- The payload behind a header. The checks are made in this order: enough bytes for a header, the
magic bytes, the format, the length, the hash. -/
def openPayload (bytes : Bytes) : Except LoadError Bytes :=
  let payload := bytes.drop headerSize
  let found := ofLittleEndian (headerField bytes 4 2)
  let expected := ofLittleEndian (headerField bytes 12 4)
  if bytes.length < headerSize then .error (.lengthMismatch headerSize bytes.length)
  else if bytes.take 4 ≠ magic then .error .badMagic
  else if found ≠ formatVersion then .error (.incompatibleFormat found)
  else if payload.length ≠ expected then .error (.lengthMismatch expected payload.length)
  else if checksum payload ≠ headerField bytes 16 16 then .error .checksumMismatch
  else .ok payload

/-! ## Saving -/

/-- The hash of a version of the application. -/
def versionDigest (version : String) : Digest :=
  Blake3.hash version.toByteArray.data.toList

/-- What is stored of a variable. -/
def storeVariable (v : Variable) : StoredVariable :=
  ⟨v.name, v.calls, v.default, v.optional, v.type⟩

/-- What is stored of a route. -/
def storeRoute (route : Route) : StoredRoute where
  methods := route.methods
  path := route.template.path.text
  host := route.template.host.map (·.text)
  pathTree := route.template.path.tree
  hostTree := route.template.host.map (·.tree)
  pattern := route.template.pattern.source
  testsHost := route.template.host.isSome
  vars := route.template.vars.map storeVariable
  action := route.action
  middleware := route.middleware.map fun m => (m.name, m.parameters.toList)
  name := route.name
  attributes := route.attributes.toList
  headers := route.headers.toList

/-- What is stored of a route table. -/
def storeTable (table : RouteTable) (version : Option String) : StoredTable :=
  ⟨UInt64.ofNat table.size, version.map versionDigest, table.routes.map storeRoute⟩

/-- The snapshot of a route table. -/
def save (table : RouteTable) (version : Option String) : Bytes :=
  let payload := Codec.storedTable.write (storeTable table version)
  header payload ++ payload

/-! ## Checking -/

mutual

/-- Whether no optional segment of a tree is empty. -/
def optionalsFilled : Tree → Bool
  | .sequence parts => allOptionalsFilled parts
  | .optional parts => !parts.isEmpty && allOptionalsFilled parts
  | _ => true

/-- Whether no optional segment of some parts is empty. -/
def allOptionalsFilled : List Tree → Bool
  | [] => true
  | part :: parts => optionalsFilled part && allOptionalsFilled parts

end

/-- The first name that comes again after the names seen so far. -/
def firstRepeated (seen : List String) : List String → Option String
  | [] => none
  | name :: names => if seen.contains name then some name else firstRepeated (name :: seen) names

/-- What does not fit in a stored route. -/
def routeMisfit? (place : Nat) (route : StoredRoute) : Option Misfit :=
  let trees := route.hostTree.toList ++ [route.pathTree]
  let inTrees := Tree.variableNamesOf trees
  let stored := route.vars.map (·.name)
  if route.testsHost ≠ route.hostTree.isSome then some (.hostFlag place)
  else if route.host.isSome ≠ route.hostTree.isSome then some (.hostTemplate place)
  else if !allOptionalsFilled trees then some .emptyOptional
  else if inTrees ≠ stored then some (.variableNames place stored inTrees)
  else (firstRepeated [] stored).map (.duplicateVariable place)

/-- What does not fit in stored routes, the first of which has the given place. -/
def routesMisfit? (place : Nat) : List StoredRoute → Option Misfit
  | [] => none
  | route :: routes => (routeMisfit? place route).or (routesMisfit? (place + 1) routes)

/-- What does not fit in a stored table. -/
def misfit? (table : StoredTable) : Option Misfit :=
  if table.routeCount.toNat ≠ table.routes.length then
    some (.routeCount table.routeCount.toNat table.routes.length)
  else routesMisfit? 0 table.routes

/-! ## Loading -/

/-- Makes the rules of a variable again. -/
def rebuildRules (book : RuleBook) : List RuleCall → Except LoadError (List Rule)
  | [] => .ok []
  | call :: calls =>
    match book.resolve call with
    | .error fault => .error (.rebuild (.rule none fault))
    | .ok rule => (rebuildRules book calls).map (rule :: ·)

/-- Makes the variables of a template again. -/
def rebuildVariables (book : RuleBook) : List StoredVariable → Except LoadError (List Variable)
  | [] => .ok []
  | v :: vs =>
    match rebuildRules book v.calls with
    | .error e => .error e
    | .ok rules =>
      (rebuildVariables book vs).map (⟨v.name, v.calls, rules, v.default, v.optional, v.type⟩ :: ·)

/-- The host side of a stored route. -/
def hostSide? (route : StoredRoute) : Option TemplateSide :=
  match route.host, route.hostTree with
  | some text, some tree => some ⟨text, tree⟩
  | _, _ => none

/-- Makes a route again; its pattern comes before its rules. -/
def rebuildRoute (book : RuleBook) (route : StoredRoute) : Except LoadError Route :=
  match Pattern.ofSource route.pattern with
  | .error fault => .error (.pattern fault)
  | .ok pattern =>
    (rebuildVariables book route.vars).map fun vars =>
      { methods := route.methods
        template := ⟨⟨route.path, route.pathTree⟩, hostSide? route, vars, pattern⟩
        action := route.action
        middleware := route.middleware.map fun (name, parameters) => ⟨name, .ofList parameters⟩
        name := route.name
        attributes := .ofList route.attributes
        headers := .ofList route.headers }

/-- Makes routes again; the first failure counts. -/
def rebuildRoutes (book : RuleBook) : List StoredRoute → Except LoadError (List Route)
  | [] => .ok []
  | route :: routes =>
    match rebuildRoute book route with
    | .error e => .error e
    | .ok rebuilt => (rebuildRoutes book routes).map (rebuilt :: ·)

/-- The stored table of a payload, which it takes up completely. -/
def readTable (payload : Bytes) : Except LoadError StoredTable :=
  match Codec.storedTable.read payload with
  | none => .error .undecodable
  | some (table, []) => .ok table
  | some (_, rest) => .error (.misfit (.trailingBytes rest.length))

/-- Whether a stored table is one for the expected version; without an expectation it always is. -/
def isCurrent (table : StoredTable) : Option String → Bool
  | none => true
  | some version => table.version == some (versionDigest version)

/-- Loads a route table from a snapshot. -/
def load (book : RuleBook) (expected : Option String) (bytes : Bytes) :
    Except LoadError RouteTable := do
  let payload ← openPayload bytes
  let stored ← readTable payload
  if !isCurrent stored expected then .error .staleVersion
  match misfit? stored with
  | some cause => .error (.misfit cause)
  | none =>
    let routes ← rebuildRoutes book stored.routes
    (RouteTable.ofRoutes routes).mapError .rebuild

/-- Loads a route table and reports the events. -/
def reportLoad (book : RuleBook) (expected : Option String) (bytes : Bytes) :
    RouteTable.Report (Except LoadError RouteTable) :=
  match load book expected bytes with
  | .ok table => ⟨.ok table, [table.builtEvent]⟩
  | .error e => ⟨.error e, []⟩

end UriRouting.Snapshot
