import UriRouting.Proofs.Template.ReducedItems
/-!
# What a template's pattern counts

A pattern can be refused for its depth and for its size. Both are counted on the pattern, and both can be
counted on the trees of the template.

The depth: an optional segment is a group that may be repeated, and what it holds is a sequence if it is
more than one item; a variable is a group that repeats a class.

The size: it is that of the reduced pattern. Reducing the pattern of a template only takes the plain groups
away. No item of it is a sequence, and variables and optional segments are repetitions that stay. A
character of a literal is its bytes, or the set of its cases on the side of the host, and all variables of
a side are of one size.

* `Template.nesting_patternNode` says that the levels counted on the trees are those of the pattern, and
  `Tree.patternDepth_le` bounds them by the optional segments inside one another;
* `Template.compiledSize_patternNode` says the same of the size.
-/

namespace UriRouting

open Pattern

namespace Pattern

theorem size_single (direction : Direction) (c : Char) :
    (CharSet.single c).size direction = stateSize * c.utf8Size := by
  simp [CharSet.size, CharSet.only?, CharSet.single, CharSet.range]

namespace Node

theorem nestingAll_append (items items' : List Node) :
    nestingAll (items ++ items') = max (nestingAll items) (nestingAll items') := by
  induction items with
  | nil => simp [nestingAll]
  | cons item items ih => simp [nestingAll, ih, Nat.max_assoc]

theorem nestingAll_map_char (own : List Char) (anyCase : Bool) :
    nestingAll (own.map fun c => .char c anyCase) = 0 := by
  induction own with
  | nil => rfl
  | cons c own ih => simpa [nestingAll, nesting] using ih

/-- A sequence is a level if it has more than one item. -/
theorem nesting_ofItems (items : List Node) :
    (ofItems items).nesting = nestingAll items + (if 1 < items.length then 1 else 0) := by
  rcases items with _ | ⟨item, _ | ⟨item', items⟩⟩
  · rfl
  · simp [ofItems, nestingAll]
  · simp [ofItems, nesting]

theorem sizeAll_append (direction : Direction) (items items' : List Node) :
    sizeAll direction (items ++ items') = sizeAll direction items + sizeAll direction items' := by
  induction items with
  | nil => simp [sizeAll]
  | cons item items ih => simp [sizeAll, ih, Nat.add_assoc]

/-- A sequence is as large as its items together, and nothing is one state. -/
theorem size_ofItems (direction : Direction) (items : List Node) :
    (ofItems items).size direction = if items = [] then stateSize else sizeAll direction items := by
  rcases items with _ | ⟨item, _ | ⟨item', items⟩⟩
  · rfl
  · simp [ofItems, sizeAll]
  · simp [ofItems, size]

end Node

end Pattern

namespace Tree

open Pattern.Node

/-! ## Items of trees -/

mutual

/-- The number of items that a tree is matched by: each character of a literal is one. -/
def itemCount : Tree → Nat
  | .sequence parts => itemCountOf parts
  | .literal own => own.toList.length
  | .variable _ _ _ => 1
  | .optional _ => 1

/-- The number of items that some parts are matched by. -/
def itemCountOf : List Tree → Nat
  | [] => 0
  | part :: parts => itemCount part + itemCountOf parts

end

mutual

theorem length_items (side : Side) (tree : Tree) : (tree.items side).length = tree.itemCount := by
  cases tree with
  | sequence parts => exact length_itemsOf side parts
  | literal own => simp [items, itemCount]
  | «variable» name calls default => rfl
  | optional parts => rfl

theorem length_itemsOf (side : Side) (parts : List Tree) :
    (itemsOf side parts).length = itemCountOf parts := by
  cases parts with
  | nil => rfl
  | cons part parts =>
    rw [itemsOf, List.length_append, length_items side part, length_itemsOf side parts, itemCountOf]

end

/-! ## Levels of a tree -/

mutual

/-- The greatest number of optional segments of a tree that stand inside one another. -/
def optionalDepth : Tree → Nat
  | .sequence parts => optionalDepthOf parts
  | .literal _ => 0
  | .variable _ _ _ => 0
  | .optional parts => optionalDepthOf parts + 1

/-- The greatest number of optional segments of some parts that stand inside one another. -/
def optionalDepthOf : List Tree → Nat
  | [] => 0
  | part :: parts => max (optionalDepth part) (optionalDepthOf parts)

end

mutual

/-- The levels that a tree adds to its pattern. A variable is a group that repeats a class, and an optional
segment is a group that may be absent. More than one item in a segment is a sequence. -/
def patternDepth (side : Side) : Tree → Nat
  | .sequence parts => patternDepthOf side parts
  | .literal _ => 0
  | .variable _ _ _ => side.fillerNesting + 2
  | .optional parts => patternDepthOf side parts + (if 1 < itemCountOf parts then 1 else 0) + 2

/-- The levels that some parts add to their pattern. -/
def patternDepthOf (side : Side) : List Tree → Nat
  | [] => 0
  | part :: parts => max (patternDepth side part) (patternDepthOf side parts)

end

mutual

theorem nestingAll_items (side : Side) (tree : Tree) :
    nestingAll (tree.items side) = tree.patternDepth side := by
  cases tree with
  | sequence parts => exact nestingAll_itemsOf side parts
  | literal own => exact nestingAll_map_char own.toList side.anyCase
  | «variable» name calls default => simp [items, nestingAll, nesting, patternDepth]
  | optional parts =>
    simp [items, nestingAll, nesting, nesting_ofItems, patternDepth, nestingAll_itemsOf side parts,
      length_itemsOf side parts]

theorem nestingAll_itemsOf (side : Side) (parts : List Tree) :
    nestingAll (itemsOf side parts) = patternDepthOf side parts := by
  cases parts with
  | nil => rfl
  | cons part parts =>
    rw [itemsOf, nestingAll_append, nestingAll_items side part, nestingAll_itemsOf side parts,
      patternDepthOf]

end

mutual

/-- An optional segment adds no more than three levels, and a variable inside adds its own. -/
theorem patternDepth_le (side : Side) (tree : Tree) :
    tree.patternDepth side ≤ 3 * tree.optionalDepth + side.fillerNesting + 2 := by
  cases tree with
  | sequence parts => exact patternDepthOf_le side parts
  | literal own => simp [patternDepth]
  | «variable» name calls default => simp [patternDepth, optionalDepth]
  | optional parts =>
    have hparts := patternDepthOf_le side parts
    rw [patternDepth, optionalDepth]
    split <;> omega

theorem patternDepthOf_le (side : Side) (parts : List Tree) :
    patternDepthOf side parts ≤ 3 * optionalDepthOf parts + side.fillerNesting + 2 := by
  cases parts with
  | nil => simp [patternDepthOf]
  | cons part parts =>
    have hpart := patternDepth_le side part
    have hparts := patternDepthOf_le side parts
    rw [patternDepthOf, optionalDepthOf]
    omega

end

/-! ## Sizes of trees -/

/-- The size of a variable, which is a class once or more in a group. -/
def variableSize (direction : Direction) (side : Side) : Nat :=
  side.fillers.size direction + choiceSize + captureSize direction

mutual

/-- The size of a tree as a part of its pattern. -/
def patternSize (direction : Direction) (side : Side) : Tree → Nat
  | .sequence parts => patternSizeOf direction side parts
  | .literal own => total (fun c => (setOf c side.anyCase).size direction) own.toList
  | .variable _ _ _ => variableSize direction side
  | .optional parts =>
    (if itemCountOf parts = 0 then stateSize else patternSizeOf direction side parts)
      + choiceSize + stateSize

/-- The size of some parts together. -/
def patternSizeOf (direction : Direction) (side : Side) : List Tree → Nat
  | [] => 0
  | part :: parts => patternSize direction side part + patternSizeOf direction side parts

end

/-- Each character of a literal of the path takes up a state or more. -/
theorem le_patternSize_literal (direction : Direction) (own : String) :
    stateSize * own.toList.length ≤ (Tree.literal own).patternSize direction .path := by
  rw [patternSize]
  induction own.toList with
  | nil => simp
  | cons c cs ih =>
    have hchar : (setOf c Side.path.anyCase).size direction = stateSize * c.utf8Size :=
      size_single direction c
    have hbytes : stateSize * 1 ≤ stateSize * c.utf8Size := Nat.mul_le_mul_left _ c.utf8Size_pos
    rw [total, List.length_cons, hchar, Nat.mul_succ]
    omega

/-- The characters of a literal count one by one. -/
theorem sizeAll_map_char (direction : Direction) (own : List Char) (anyCase : Bool) :
    sizeAll direction (own.map fun c => .char c anyCase)
      = total (fun c => (setOf c anyCase).size direction) own := by
  induction own with
  | nil => rfl
  | cons c own ih => rw [List.map_cons, sizeAll, ih, total, size]

mutual

theorem sizeAll_items (direction : Direction) (side : Side) (tree : Tree) :
    sizeAll direction ((tree.items side).map reduced) = tree.patternSize direction side := by
  cases tree with
  | sequence parts => exact sizeAll_itemsOf direction side parts
  | literal own =>
    rw [items, List.map_map]
    exact sizeAll_map_char direction own.toList side.anyCase
  | «variable» name calls default =>
    rw [items, List.map_singleton, reduced_variable]
    simp [sizeAll, size, patternSize, variableSize, repeatedSize]
  | optional parts =>
    rw [items, List.map_singleton, reduced_optional, reduced_ofItems (staysItem_of_mem_itemsOf side parts)]
    simp [sizeAll, size, repeatedSize, size_ofItems, patternSize, sizeAll_itemsOf direction side parts,
      ← length_itemsOf side parts]

theorem sizeAll_itemsOf (direction : Direction) (side : Side) (parts : List Tree) :
    sizeAll direction ((itemsOf side parts).map reduced) = patternSizeOf direction side parts := by
  cases parts with
  | nil => rfl
  | cons part parts =>
    rw [itemsOf, List.map_append, sizeAll_append, sizeAll_items direction side part,
      sizeAll_itemsOf direction side parts, patternSizeOf]

end

end Tree

namespace Template

/-! ## Levels of a template -/

/-- The levels of the host in a pattern. A host is a group, and a host that is left open is a class that is
repeated. -/
def hostDepth : Option Tree → Nat
  | some host => host.patternDepth .host + (if 1 < host.itemCount then 1 else 0) + 1
  | none => 2

/-- The levels of the pattern of a path and a host. -/
def patternDepth (path : Tree) (host : Option Tree) : Nat :=
  max (hostDepth host) (path.patternDepth .path) + 1

/-- The levels that are counted on the trees are those of the pattern. -/
theorem nesting_patternNode (path : Tree) (host : Option Tree) :
    (patternNode path host).nesting = patternDepth path host := by
  have hhost : (hostItem host).nesting = hostDepth host := by
    cases host with
    | none => rfl
    | some host =>
      simp [hostItem, hostDepth, Pattern.Node.nesting, Pattern.Node.nesting_ofItems,
        Tree.nestingAll_items, Tree.length_items]
  simp [patternNode, patternDepth, Pattern.Node.nesting, Pattern.Node.nestingAll,
    Pattern.Node.nestingAll_append, Tree.nestingAll_items, hhost]

/-- A path with no more than 82 optional segments inside one another, and a host with no more than 81, have a
pattern that is not too deep. -/
theorem patternDepth_le_maxNesting {path : Tree} {host : Option Tree} (hpath : path.optionalDepth ≤ 82)
    (hhost : ∀ tree ∈ host, tree.optionalDepth ≤ 81) : patternDepth path host ≤ Pattern.maxNesting := by
  have hpathDepth := path.patternDepth_le .path
  have hhostDepth : hostDepth host ≤ 249 := by
    cases host with
    | none => simp [hostDepth]
    | some tree =>
      have htree := hhost tree rfl
      have htreeDepth := tree.patternDepth_le .host
      simp only [Side.fillerNesting] at htreeDepth
      rw [hostDepth]
      split <;> omega
  simp only [Side.fillerNesting] at hpathDepth
  rw [patternDepth, Pattern.maxNesting]
  omega

/-! ## The size of a template -/

/-- The size of the host in a pattern. A host that is left open is a class any number of times. -/
def hostSize (direction : Direction) : Option Tree → Nat
  | some host => host.patternSize direction .host
  | none => (CharSet.single '\x00').complement.size direction + choiceSize

/-- The size of the automaton of a path and a host. The anchors, the separator, the search and the
arrival are one state each. -/
def automatonSize (direction : Direction) (path : Tree) (host : Option Tree) : Nat :=
  hostSize direction host + path.patternSize direction .path + 5 * stateSize + captureSize direction

/-- The size of the pattern of a path and a host. -/
def patternSize (path : Tree) (host : Option Tree) : Nat :=
  max (automatonSize .onward path host) (automatonSize .backward path host)

theorem sizeAll_hostItem (direction : Direction) (host : Option Tree) :
    Node.sizeAll direction (hostItem host).reduced.itemsOf = hostSize direction host := by
  cases host with
  | none => rfl
  | some host => rw [itemsOf_hostItem, hostSize, Tree.sizeAll_items]

theorem automatonSize_patternNode (direction : Direction) (path : Tree) (host : Option Tree) :
    (patternNode path host).reduced.automatonSize direction = automatonSize direction path host := by
  have hanchored : (patternNode path host).reduced.isAnchored direction = true := by
    rw [reduced_patternNode, Node.ofItems_cons_append]
    cases direction with
    | onward => rfl
    | backward =>
      rw [Node.isAnchored, Node.itemsOf, List.reverse_cons, List.reverse_append, List.reverse_cons,
        List.reverse_append]
      rfl
  have hseparator : (Node.setOf separator false).size direction = stateSize :=
    size_single direction separator
  rw [Node.automatonSize, hanchored, reduced_patternNode, Node.ofItems_cons_append]
  simp only [Node.size, Node.sizeAll, Node.sizeAll_append, hseparator, sizeAll_hostItem,
    Tree.sizeAll_items, Node.searchSize, if_true, automatonSize]
  omega

/-- The size that is counted on the trees is that of the pattern. -/
theorem compiledSize_patternNode (path : Tree) (host : Option Tree) :
    (patternNode path host).compiledSize = patternSize path host := by
  simp only [Node.compiledSize, automatonSize_patternNode, patternSize]

/-! ## Long literals -/

/-- A path that is one literal is not deep, whatever it holds. -/
theorem nesting_literal_le (own : String) :
    (patternNode (.sequence [.literal own]) none).nesting ≤ Pattern.maxNesting := by
  rw [nesting_patternNode]
  exact Nat.le_of_ble_eq_true rfl

/-- A path that is one literal is too big if it is long enough. -/
theorem maxSize_lt_compiledSize_literal {own : String}
    (h : Pattern.maxSize < stateSize * own.toList.length) :
    Pattern.maxSize < (patternNode (.sequence [.literal own]) none).compiledSize := by
  have hliteral := Tree.le_patternSize_literal .onward own
  have hpath : (Tree.sequence [.literal own]).patternSize .onward .path
      = (Tree.literal own).patternSize .onward .path := by
    rw [Tree.patternSize, Tree.patternSizeOf, Tree.patternSizeOf, Nat.add_zero]
  have honward : automatonSize .onward (.sequence [.literal own]) none
      ≤ patternSize (.sequence [.literal own]) none := Nat.le_max_left _ _
  rw [compiledSize_patternNode]
  rw [automatonSize, hpath] at honward
  omega

end Template

end UriRouting
