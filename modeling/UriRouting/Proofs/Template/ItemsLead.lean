import UriRouting.Proofs.Template.ReducedItems
import UriRouting.Proofs.Template.Simulation
/-!
# The items of a tree's pattern lead along its ways

Before a pattern becomes a network it is reduced. The items of a tree's pattern stay items then, and they
lead along the ways of the tree.

* `ItemsLead` says of items one after another what `Leads` says of a fragment;
* `Tree.itemsLead_items` is the main statement.
-/

namespace UriRouting

open Pattern UriRouting.Tree

/-! ## Items one after another -/

/-- Items lead one after another as a function on ways does. -/
inductive ItemsLead (text : Array Char) : List Node → (Way → List Way) → Prop where
  | nil : ItemsLead text [] fun way => [way]
  | cons {node : Node} {nodes : List Node} {f g : Way → List Way} (h : Leads text node.fragment f)
      (h' : ItemsLead text nodes g) : ItemsLead text (node :: nodes) fun way => (f way).flatMap g

namespace ItemsLead

variable {text : Array Char} {nodes nodes' : List Node} {f g : Way → List Way}

/-- Only the values of the function count. -/
theorem congr (h : ItemsLead text nodes f) (heq : ∀ way, f way = g way) : ItemsLead text nodes g := by
  rwa [← funext heq]

theorem single {node : Node} (h : Leads text node.fragment f) : ItemsLead text [node] f :=
  (cons h nil).congr fun way => List.flatMap_singleton' (f way)

theorem append (h : ItemsLead text nodes f) (h' : ItemsLead text nodes' g) :
    ItemsLead text (nodes ++ nodes') fun way => (f way).flatMap g := by
  induction h with
  | nil => exact h'.congr fun way => (List.flatMap_singleton g way).symm
  | cons hnode hnodes ih => exact (cons hnode ih).congr fun way => List.flatMap_assoc.symm

theorem leads (h : ItemsLead text nodes f) : Leads text (Node.fragmentOfAll nodes) f := by
  induction h with
  | nil => exact leads_skip
  | cons hnode hnodes ih => exact hnode.andThen ih

theorem leads_ofItems (h : ItemsLead text nodes f) : Leads text (Node.ofItems nodes).fragment f := by
  cases h with
  | nil => exact leads_skip
  | @cons node nodes f g hnode hnodes =>
    cases hnodes with
    | nil => exact hnode.congr fun way => (List.flatMap_singleton' (f way)).symm
    | cons hnode' hnodes => exact (cons hnode (cons hnode' hnodes)).leads

end ItemsLead

/-! ## Trees -/

namespace Pattern

variable {text : Array Char}

/-- A character of a literal stands for the characters that are the same to its side. -/
theorem accepts_eq_sameChar (side : Side) (c : Char) :
    Node.accepts c side.anyCase = side.sameChar c := by
  funext d
  rw [Bool.eq_iff_iff]
  cases side with
  | path =>
    show (d == c) = true ↔ (c == d) = true
    rw [beq_iff_eq, beq_iff_eq]
    exact eq_comm
  | host => simp [Node.accepts, Side.anyCase, Side.sameChar, Text.sameFold_iff]

/-- A character of a literal. -/
theorem leads_char (side : Side) (c : Char) :
    Leads text (Node.char c side.anyCase).fragment (taken (side.sameChar c)) := by
  rw [Node.fragment, accepts_eq_sameChar]
  exact leads_take _

/-- The group of a variable. -/
theorem leads_variable (side : Side) (name : String) :
    Leads text (Node.group (.named name) (.repetition (.oneOf side.fillers 0) 1 none true)).fragment
      fun way => (countsDown (reach side way.rest)).map (way.taking name) := by
  have hreach : ∀ rest, run side.fillers.contains rest = reach side rest := by
    intro rest
    rw [run, reach, funext side.contains_fillers]
  have hgroup : Leads text
      (Node.group (.named name) (.repetition (.oneOf side.fillers 0) 1 none true)).fragment
      fun way => ([way].flatMap (ranOver side.fillers.contains)).map (capturing name way) :=
    (leads_skip.andThen (leads_oneOrMore side.fillers.contains)).capture name
  apply hgroup.congr
  intro way
  rw [List.flatMap_singleton, ranOver, List.map_map, hreach]
  apply List.map_congr_left
  intro count hcount
  have hlen : count ≤ way.rest.length :=
    Nat.le_trans (mem_countsDown.1 hcount).2 (reach_le_length side way.rest)
  simp only [Function.comp_apply, capturing, Way.rest_extended, Way.extended_extended, Way.taking,
    List.length_drop, List.append_nil, List.nil_append]
  rw [show way.rest.length - (way.rest.length - count) = count by omega]

/-- An optional group is tried before it is left out. -/
theorem leads_optional {body : Node} {f : Way → List Way} (h : Leads text body.fragment f) :
    Leads text (Node.repetition body 0 (some 1) true).fragment fun way =>
      f (way.choosing 1) ++ [way.choosing 0] := by
  have hgroup : Leads text (Node.repetition body 0 (some 1) true).fragment fun way =>
      [way].flatMap fun way =>
        ((f (way.choosing 1)).flatMap fun way => [way]) ++ [way.choosing 0] := by
    rw [Node.fragment]
    exact leads_skip.andThen (h.andThen leads_skip).optionally
  exact hgroup.congr fun way => by rw [List.flatMap_singleton, List.flatMap_singleton']

/-- The characters of a literal one after another. -/
theorem itemsLead_literal (side : Side) (own : List Char) :
    ItemsLead text (own.map fun c => .char c side.anyCase) fun way =>
      (literalRest? side own way.rest).toList.map fun rest => way.extended rest [] [] := by
  induction own with
  | nil => exact ItemsLead.nil.congr fun way => by simp [literalRest?, Way.extended_nil]
  | cons c own ih =>
    apply (ItemsLead.cons (leads_char side c) ih).congr
    intro way
    cases hrest : way.rest with
    | nil => simp [taken, hrest, literalRest?]
    | cons d rest =>
      by_cases hsame : side.sameChar c d = true
      · simp [taken, hrest, literalRest?, hsame, Way.extended_extended]
      · simp [taken, hrest, literalRest?, hsame]

end Pattern

namespace Tree

mutual

/-- The items of a tree lead along its ways. -/
theorem itemsLead_items (text : Array Char) (side : Side) (tree : Tree) :
    ItemsLead text ((tree.items side).map Node.reduced) (ways side tree) := by
  cases tree with
  | sequence parts =>
    rw [items]
    exact (itemsLead_itemsOf text side parts).congr fun way => by rw [ways]
  | literal own =>
    rw [items, List.map_map]
    exact (itemsLead_literal side own.toList).congr fun way => by rw [ways]
  | «variable» name calls default =>
    rw [items, List.map_singleton, reduced_variable]
    exact (ItemsLead.single (leads_variable side name)).congr fun way => by rw [ways]
  | optional parts =>
    rw [items, List.map_singleton, reduced_optional,
      Node.reduced_ofItems (staysItem_of_mem_itemsOf side parts)]
    refine (ItemsLead.single (leads_optional ?_)).congr fun way => (by rw [ways])
    exact (itemsLead_itemsOf text side parts).leads_ofItems

/-- The items of some parts lead along their ways. -/
theorem itemsLead_itemsOf (text : Array Char) (side : Side) (parts : List Tree) :
    ItemsLead text ((itemsOf side parts).map Node.reduced) (waysOf side parts) := by
  cases parts with
  | nil => exact ItemsLead.nil.congr fun way => by rw [waysOf]
  | cons part parts =>
    rw [itemsOf, List.map_append]
    apply ((itemsLead_items text side part).append (itemsLead_itemsOf text side parts)).congr
    intro way
    rw [waysOf]

end

end Tree

end UriRouting
