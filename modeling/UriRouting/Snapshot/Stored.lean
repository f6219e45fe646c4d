import UriRouting.Snapshot.Codec
import UriRouting.Snapshot.Blake3
import UriRouting.RouteTable
/-!
# Stored routes

A snapshot holds everything about a route that cannot be made again at once: its templates as texts
and trees, its pattern as a text, and its variables with the calls of their rules. Each part has a
codec, and the parts follow each other in the order of their fields.
-/

namespace UriRouting.Snapshot

/-! ## Values and calls -/

/-- Writes a signed number: zero, minus one, one, minus two and so on are numbered from zero. -/
def foldSign (i : Int64) : UInt64 :=
  UInt64.ofNat (if 0 ≤ i.toInt then 2 * i.toInt.natAbs else 2 * i.toInt.natAbs - 1)

/-- The signed number of a place in this order. -/
def unfoldSign (n : UInt64) : Int64 :=
  Int64.ofInt (if n.toNat % 2 = 0 then (n.toNat / 2 : Nat) else -((n.toNat / 2 : Nat) : Int) - 1)

theorem unfoldSign_foldSign (i : Int64) : unfoldSign (foldSign i) = i := by
  have hlow := i.le_toInt
  have hhigh := i.toInt_lt
  have key : (if (foldSign i).toNat % 2 = 0 then (((foldSign i).toNat / 2 : Nat) : Int)
      else -(((foldSign i).toNat / 2 : Nat) : Int) - 1) = i.toInt := by
    unfold foldSign
    split
    · have hn : 2 * i.toInt.natAbs < 2 ^ 64 := by omega
      rw [UInt64.toNat_ofNat_of_lt' hn]
      rw [if_pos (by omega)]
      omega
    · have hn : 2 * i.toInt.natAbs - 1 < 2 ^ 64 := by omega
      rw [UInt64.toNat_ofNat_of_lt' hn]
      rw [if_neg (by omega)]
      omega
  rw [unfoldSign, key, Int64.ofInt_toInt]

namespace Codec

/-- Signed numbers. -/
def integer : Codec Int64 :=
  natural.via unfoldSign foldSign unfoldSign_foldSign

/-- Double-precision numbers, as their words. -/
def float : Codec Binary64 where
  write x := littleEndian 8 x.bits.toNat
  read bytes := (readFixed 8 bytes).map fun (n, rest) => (⟨UInt64.ofNat n⟩, rest)
  write_ne_nil x := by simp [littleEndian]
  read_write x rest _ := by
    have h : x.bits.toNat < Nat.pow 256 8 := by simpa using x.bits.toNat_lt
    simp [readFixed_littleEndian h rest]

/-- Writes a value behind the number of its type. -/
def writeValue : Value → Bytes
  | .int i => 0 :: integer.write i
  | .float x => 1 :: float.write x
  | .bool b => 2 :: bool.write b
  | .string s => 3 :: text.write s

/-- Reads a value. -/
def readValue : Reader Value := fun bytes =>
  match readTag bytes with
  | some (0, rest) => (integer.read rest).map fun (i, rest) => (.int i, rest)
  | some (1, rest) => (float.read rest).map fun (x, rest) => (.float x, rest)
  | some (2, rest) => (bool.read rest).map fun (b, rest) => (.bool b, rest)
  | some (3, rest) => (text.read rest).map fun (s, rest) => (.string s, rest)
  | _ => none

/-- Values. -/
def value : Codec Value where
  write := writeValue
  read := readValue
  write_ne_nil v := by cases v <;> simp [writeValue]
  read_write v rest h := by
    cases v with
    | int i =>
      have hlen : (integer.write i).length < UInt64.size := by
        simp only [writeValue, List.length_cons] at h
        omega
      simp [writeValue, readValue, integer.read_write i rest hlen]
    | float x =>
      have hlen : (float.write x).length < UInt64.size := by simp [float, UInt64.size]
      simp [writeValue, readValue, float.read_write x rest hlen]
    | bool b =>
      have hlen : (bool.write b).length < UInt64.size := by simp [bool, UInt64.size]
      simp [writeValue, readValue, bool.read_write b rest hlen]
    | string s =>
      have hlen : (text.write s).length < UInt64.size := by
        simp only [writeValue, List.length_cons] at h
        omega
      simp [writeValue, readValue, text.read_write s rest hlen]

/-- The types of values. -/
def valueType : Codec ValueType where
  write
    | .int => [0]
    | .float => [1]
    | .string => [2]
  read bytes :=
    match readTag bytes with
    | some (0, rest) => some (.int, rest)
    | some (1, rest) => some (.float, rest)
    | some (2, rest) => some (.string, rest)
    | _ => none
  write_ne_nil t := by cases t <;> simp
  read_write t rest _ := by cases t <;> simp

/-- Calls of rules. -/
def call : Codec RuleCall :=
  (text.pair value.list).via (fun (slug, arguments) => ⟨slug, arguments⟩)
    (fun call => (call.slug, call.arguments)) fun _ => rfl

end Codec

/-! ## Trees -/

mutual

/-- Writes a tree behind the number of its kind. -/
def writeTree : Tree → Bytes
  | .sequence parts => 0 :: (writeNumber parts.length ++ writeTrees parts)
  | .literal text => 1 :: Codec.text.write text
  | .variable name calls default =>
    2 :: (Codec.text.write name ++ (Codec.call.list.write calls ++ Codec.text.option.write default))
  | .optional parts => 3 :: (writeNumber parts.length ++ writeTrees parts)

/-- Writes trees one after another. -/
def writeTrees : List Tree → Bytes
  | [] => []
  | tree :: trees => writeTree tree ++ writeTrees trees

end

/-- The codec of what stands in a variable. -/
def variableParts : Codec (String × List RuleCall × Option String) :=
  Codec.text.pair (Codec.call.list.pair Codec.text.option)

/-- Reads a tree that is nested less deeply than the given bound. -/
def readTree : Nat → Reader Tree
  | 0, _ => none
  | depth + 1, bytes =>
    match readTag bytes with
    | some (0, rest) => (readList (readTree depth) rest).map fun (parts, rest) => (.sequence parts, rest)
    | some (1, rest) => (Codec.text.read rest).map fun (text, rest) => (.literal text, rest)
    | some (2, rest) =>
      (variableParts.read rest).map fun ((name, calls, default), rest) =>
        (.variable name calls default, rest)
    | some (3, rest) => (readList (readTree depth) rest).map fun (parts, rest) => (.optional parts, rest)
    | _ => none

theorem writeTrees_eq_flatMap (trees : List Tree) : writeTrees trees = trees.flatMap writeTree := by
  induction trees with
  | nil => rfl
  | cons tree trees ih => rw [writeTrees, ih, List.flatMap_cons]

theorem writeTree_ne_nil (tree : Tree) : writeTree tree ≠ [] := by
  cases tree <;> simp [writeTree]

theorem writeTree_children (parts : List Tree) :
    writeNumber parts.length ++ writeTrees parts = writeList writeTree parts := by
  rw [writeList, writeTrees_eq_flatMap]

mutual

/-- A tree is read back by any bound that its bytes do not exceed. -/
theorem readTree_writeTree (tree : Tree) (depth : Nat) (rest : Bytes)
    (hdepth : (writeTree tree).length ≤ depth) (hlen : (writeTree tree).length < UInt64.size) :
    readTree depth (writeTree tree ++ rest) = some (tree, rest) := by
  cases depth with
  | zero =>
    have := List.length_pos_iff.2 (writeTree_ne_nil tree)
    omega
  | succ depth =>
    cases tree with
    | sequence parts =>
      simp only [writeTree, writeTree_children, List.length_cons] at hdepth hlen
      have h := readList_writeTree parts depth rest (by omega) (by omega)
      simp [writeTree, writeTree_children, readTree, h]
    | literal text =>
      simp only [writeTree, List.length_cons] at hlen
      simp [writeTree, readTree, Codec.text.read_write text rest (by omega)]
    | «variable» name calls default =>
      simp only [writeTree, List.length_cons] at hlen
      have h := variableParts.read_write (name, calls, default) rest (by
        simp only [variableParts, Codec.pair]
        omega)
      simp only [variableParts, Codec.pair, List.append_assoc] at h
      simp [writeTree, readTree, variableParts, Codec.pair, h]
    | optional parts =>
      simp only [writeTree, writeTree_children, List.length_cons] at hdepth hlen
      have h := readList_writeTree parts depth rest (by omega) (by omega)
      simp [writeTree, writeTree_children, readTree, h]

theorem readList_writeTree (parts : List Tree) (depth : Nat) (rest : Bytes)
    (hdepth : (writeList writeTree parts).length ≤ depth)
    (hlen : (writeList writeTree parts).length < UInt64.size) :
    readList (readTree depth) (writeList writeTree parts ++ rest) = some (parts, rest) := by
  refine readList_writeList parts (fun tree htree rest => ?_) ?_ rest
  · have hle : (writeTree tree).length ≤ (writeList writeTree parts).length :=
      length_write_le_writeList htree
    exact readTree_writeTree tree depth rest (by omega) (by omega)
  · exact Nat.lt_of_le_of_lt (length_le_writeList writeTree_ne_nil parts) hlen

end

namespace Codec

/-- Trees. A tree is never nested more deeply than it has bytes. -/
def tree : Codec Tree where
  write := writeTree
  read bytes := readTree bytes.length bytes
  write_ne_nil := writeTree_ne_nil
  read_write t rest h := readTree_writeTree t _ rest (by simp) h

end Codec

/-! ## Routes and tables -/

/-- A variable of a stored template. -/
structure StoredVariable where
  /-- The name of the variable. -/
  name : String
  /-- Its rules as the template calls them. -/
  calls : List RuleCall
  /-- Its default. -/
  default : Option String
  /-- Whether it is part of an optional segment. -/
  optional : Bool
  /-- The type of its values. -/
  type : ValueType

/-- A stored route. -/
structure StoredRoute where
  /-- The methods. -/
  methods : List String
  /-- The path template. -/
  path : String
  /-- The host template. -/
  host : Option String
  /-- The tree of the path template. -/
  pathTree : Tree
  /-- The tree of the host template. -/
  hostTree : Option Tree
  /-- The text of the pattern. -/
  pattern : String
  /-- Whether the pattern tests the host. -/
  testsHost : Bool
  /-- The variables. -/
  vars : List StoredVariable
  /-- What the route dispatches to. -/
  action : Action
  /-- The middleware with its parameters. -/
  middleware : List (String × List (String × Value))
  /-- The name. -/
  name : Option String
  /-- The attributes. -/
  attributes : List (String × Value)
  /-- The headers that a request must have. -/
  headers : List (String × String)

/-- A stored route table. -/
structure StoredTable where
  /-- The number of routes. -/
  routeCount : UInt64
  /-- The hash of the version that the table was built for. -/
  version : Option Digest
  /-- The routes. -/
  routes : List StoredRoute

namespace Codec

/-- Variables. -/
def storedVariable : Codec StoredVariable :=
  (text.pair (call.list.pair (text.option.pair (bool.pair valueType)))).via
    (fun (name, calls, default, optional, type) => ⟨name, calls, default, optional, type⟩)
    (fun v => (v.name, v.calls, v.default, v.optional, v.type)) fun _ => rfl

/-- Actions. -/
def action : Codec Action where
  write
    | .method controller member => 0 :: (text.pair text).write (controller, member)
    | .handler name => 1 :: text.write name
  read bytes :=
    match readTag bytes with
    | some (0, rest) =>
      ((text.pair text).read rest).map fun ((controller, member), rest) =>
        (.method controller member, rest)
    | some (1, rest) => (text.read rest).map fun (name, rest) => (.handler name, rest)
    | _ => none
  write_ne_nil a := by cases a <;> simp
  read_write a rest h := by
    cases a with
    | method controller member =>
      simp only [List.length_cons] at h
      simp [(text.pair text).read_write (controller, member) rest (by omega)]
    | handler name =>
      simp only [List.length_cons] at h
      simp [text.read_write name rest (by omega)]

/-- Routes. -/
def storedRoute : Codec StoredRoute :=
  (text.list.pair <| text.pair <| text.option.pair <| tree.pair <| tree.option.pair <|
    text.pair <| bool.pair <| storedVariable.list.pair <| action.pair <|
    (text.pair (text.pair value).list).list.pair <| text.option.pair <|
    (text.pair value).list.pair (text.pair text).list).via
    (fun (methods, path, host, pathTree, hostTree, pattern, testsHost, vars, action,
        middleware, name, attributes, headers) =>
      ⟨methods, path, host, pathTree, hostTree, pattern, testsHost, vars, action, middleware,
        name, attributes, headers⟩)
    (fun r => (r.methods, r.path, r.host, r.pathTree, r.hostTree, r.pattern, r.testsHost,
      r.vars, r.action, r.middleware, r.name, r.attributes, r.headers)) fun _ => rfl

/-- Hashes, as their bytes. -/
def digest : Codec Digest where
  write d := d.bytes
  read bytes :=
    if h : 32 ≤ bytes.length then some (⟨bytes.take 32, by simp [h]⟩, bytes.drop 32) else none
  write_ne_nil d h := by simpa [h] using d.length_eq
  read_write d rest _ := by
    obtain ⟨bytes, hlen⟩ := d
    have htake : (bytes ++ rest).take 32 = bytes := List.take_left' hlen
    have hdrop : (bytes ++ rest).drop 32 = rest := List.drop_left' hlen
    have hle : 32 ≤ (bytes ++ rest).length := by simp [hlen]
    simp only [dif_pos hle, htake, hdrop]

/-- Route tables. -/
def storedTable : Codec StoredTable :=
  (natural.pair (digest.option.pair storedRoute.list)).via
    (fun (routeCount, version, routes) => ⟨routeCount, version, routes⟩)
    (fun t => (t.routeCount, t.version, t.routes)) fun _ => rfl

end Codec

end UriRouting.Snapshot
