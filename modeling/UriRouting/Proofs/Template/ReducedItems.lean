import UriRouting.Proofs.Template.PatternNode
/-!
# The reduced pattern of a template

Before a pattern becomes a network, and before its size is taken, it is reduced. Of a template's pattern,
reducing takes away the groups that capture nothing. Its items stay items: none of them is a sequence, and
variables and optional segments are repetitions that stay.

Main statement: `Template.reduced_patternNode`.
-/

namespace UriRouting

open Pattern UriRouting.Tree

/-! ## Reduced items -/

namespace Pattern.Node

theorem reducedAll_eq_map (nodes : List Node) : reducedAll nodes = nodes.map reduced := by
  induction nodes with
  | nil => rfl
  | cons node nodes ih => rw [reducedAll, ih, List.map_cons]

/-- Whether the reduced form of a pattern is one item of a sequence. -/
def StaysItem (node : Node) : Prop :=
  node.reduced.itemsOf = [node.reduced]

theorem flatMap_itemsOf {nodes : List Node} (h : ∀ node ∈ nodes, node.StaysItem) :
    (reducedAll nodes).flatMap itemsOf = nodes.map reduced := by
  rw [reducedAll_eq_map]
  induction nodes with
  | nil => rfl
  | cons node nodes ih =>
    obtain ⟨hnode, hnodes⟩ := List.forall_mem_cons.1 h
    rw [List.map_cons, List.flatMap_cons, ih hnodes, hnode, List.singleton_append]

/-- Items are reduced one by one. -/
theorem reduced_ofItems {nodes : List Node} (h : ∀ node ∈ nodes, node.StaysItem) :
    (ofItems nodes).reduced = ofItems (nodes.map reduced) := by
  match nodes with
  | [] => rfl
  | [node] => rfl
  | node :: node' :: nodes =>
    rw [ofItems, reduced, flatMap_itemsOf h]
    · simp
    · simp

/-- Items of which there are two at least are a sequence. -/
theorem ofItems_cons_append (node node' : Node) (nodes nodes' : List Node) :
    ofItems (node :: (nodes ++ node' :: nodes')) = .sequence (node :: (nodes ++ node' :: nodes')) := by
  cases nodes with
  | nil => rfl
  | cons _ _ => rfl

theorem itemsOf_reduced_ofItems {nodes : List Node} (h : ∀ node ∈ nodes, node.StaysItem) :
    (ofItems nodes).reduced.itemsOf = nodes.map reduced := by
  match nodes with
  | [] => rfl
  | [node] => exact h node List.mem_cons_self
  | node :: node' :: nodes =>
    rw [reduced_ofItems h]
    rfl

end Pattern.Node

namespace Pattern

/-- The reduced form of a variable's group. -/
theorem reduced_variable (side : Side) (name : String) :
    (Node.group (.named name)
        (.repetition (.oneOf side.fillers side.fillerNesting) 1 none true)).reduced
      = .group (.named name) (.repetition (.oneOf side.fillers 0) 1 none true) := by
  have hset : Node.ofSet side.fillers = .oneOf side.fillers 0 := by
    cases side with
    | path => rw [Side.fillers_path]; rfl
    | host => rw [Side.fillers_host]; rfl
  show Node.group (.named name) (Node.ofRepetition (Node.ofSet side.fillers) 1 none true) = _
  rw [hset]
  rfl

/-- The reduced form of an optional group. -/
theorem reduced_optional (body : Node) :
    (Node.repetition (.group .plain body) 0 (some 1) true).reduced
      = .repetition body.reduced 0 (some 1) true := by
  rw [Node.reduced, Node.reduced, Node.ofRepetition]
  by_cases h : body.reduced.neverTakes = true
  · simp [h]
  · simp [h]

end Pattern

namespace Tree

mutual

/-- The items of a tree stay items when they are reduced. -/
theorem staysItem_of_mem_items (side : Side) (tree : Tree) :
    ∀ node ∈ tree.items side, node.StaysItem := by
  cases tree with
  | sequence parts =>
    rw [items]
    exact staysItem_of_mem_itemsOf side parts
  | literal own =>
    rw [items, List.forall_mem_map]
    intro c _
    rfl
  | «variable» name calls default =>
    rw [items, List.forall_mem_singleton, Node.StaysItem, reduced_variable]
    rfl
  | optional parts =>
    rw [items, List.forall_mem_singleton, Node.StaysItem, reduced_optional]
    rfl

/-- The items of some parts stay items when they are reduced. -/
theorem staysItem_of_mem_itemsOf (side : Side) (parts : List Tree) :
    ∀ node ∈ itemsOf side parts, node.StaysItem := by
  cases parts with
  | nil => simp [itemsOf]
  | cons part parts =>
    rw [itemsOf, List.forall_mem_append]
    exact ⟨staysItem_of_mem_items side part, staysItem_of_mem_itemsOf side parts⟩

end

end Tree

namespace Template

/-- The pattern of a host is reduced to the items of the host. -/
theorem itemsOf_hostItem (host : Tree) :
    (hostItem (some host)).reduced.itemsOf = (host.items .host).map Node.reduced := by
  rw [hostItem, Node.reduced, Node.itemsOf_reduced_ofItems (staysItem_of_mem_items .host host)]

/-- The host that is left open is reduced to itself. -/
theorem reduced_hostItem_none :
    (hostItem none).reduced
      = .repetition (.oneOf (CharSet.single separator).complement 0) 0 none true :=
  rfl

/-- The pattern of a template in its reduced form. -/
theorem reduced_patternNode (path : Tree) (host : Option Tree) :
    (patternNode path host).reduced = Node.ofItems (.assertion .textStart ::
      ((hostItem host).reduced.itemsOf ++ .char separator false ::
        ((path.items .path).map Node.reduced ++ [.assertion .textEnd]))) := by
  have hpath := Node.flatMap_itemsOf (staysItem_of_mem_items .path path)
  rw [Node.reducedAll_eq_map] at hpath
  rw [patternNode, Node.reduced, Node.reducedAll_eq_map]
  simp only [List.map_cons, List.cons_append, List.map_append, List.map_nil, List.flatMap_cons,
    List.flatMap_append, List.flatMap_nil, hpath, List.append_nil]
  rfl

end Template

end UriRouting
