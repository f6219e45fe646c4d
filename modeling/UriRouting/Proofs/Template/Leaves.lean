import UriRouting.Proofs.Template.Resolved
/-!
# The leaves of a tree

A tree ends in literals and variables. Where such a leaf stands decides what becomes of it: a variable that
has an optional segment around it is optional, and a leaf is written only where all segments around it are.

* `Tree.leaves` lists the leaves of a tree in template order, each with the optional segments around it;
* `Template.sitesIn_eq_variablesIn` says that a template is compiled from its leaves.
-/

namespace UriRouting

open UriRouting.Template

namespace Tree

/-- A literal or a variable of a tree, with the parts of each optional segment around it, those of the
innermost segment first. -/
inductive Leaf where
  /-- A literal. -/
  | literal (own : String) (around : List (List Tree))
  /-- A variable. -/
  | variable (name : String) (calls : List RuleCall) (default : Option String)
      (around : List (List Tree))

/-- The parts of the optional segments around a leaf. -/
def Leaf.around : Leaf → List (List Tree)
  | .literal _ around => around
  | .variable _ _ _ around => around

/-- A leaf as a tree. -/
def Leaf.part : Leaf → Tree
  | .literal own _ => .literal own
  | .variable name calls default _ => .variable name calls default

/-- A variable as a template is compiled from it. It is optional if an optional segment is around it. -/
def Leaf.site? : Leaf → Option Site
  | .literal _ _ => none
  | .variable name calls default around => some ⟨name, calls, default, !around.isEmpty⟩

mutual

/-- The leaves of a tree, in template order. -/
def leaves (around : List (List Tree)) : Tree → List Leaf
  | .sequence parts => leavesOf around parts
  | .literal own => [.literal own around]
  | .variable name calls default => [.variable name calls default around]
  | .optional parts => leavesOf (parts :: around) parts

/-- The leaves of some parts, in template order. -/
def leavesOf (around : List (List Tree)) : List Tree → List Leaf
  | [] => []
  | part :: parts => leaves around part ++ leavesOf around parts

end

mutual

/-- The sites of a tree are its variable leaves. -/
theorem sites_eq_filterMap_leaves (around : List (List Tree)) (tree : Tree) :
    sites (!around.isEmpty) tree = (tree.leaves around).filterMap Leaf.site? := by
  cases tree with
  | sequence parts =>
    rw [sites, leaves]
    exact sitesOf_eq_filterMap_leavesOf around parts
  | literal own => rfl
  | «variable» name calls default => rfl
  | optional parts =>
    rw [sites, leaves]
    exact sitesOf_eq_filterMap_leavesOf (parts :: around) parts

theorem sitesOf_eq_filterMap_leavesOf (around : List (List Tree)) (parts : List Tree) :
    sitesOf (!around.isEmpty) parts = (leavesOf around parts).filterMap Leaf.site? := by
  cases parts with
  | nil => rfl
  | cons part parts =>
    rw [sitesOf, leavesOf, List.filterMap_append, sites_eq_filterMap_leaves,
      sitesOf_eq_filterMap_leavesOf]

end

end Tree

namespace Template

/-- The leaves of a path and a host, those of the host first. -/
def leavesIn (path : Tree) (host : Option Tree) : List Tree.Leaf :=
  host.elim [] (Tree.leaves []) ++ path.leaves []

/-- The variables of a path and a host as they stand in the trees, those of the host first. -/
def variablesIn (path : Tree) (host : Option Tree) : List Site :=
  (leavesIn path host).filterMap Tree.Leaf.site?

theorem sitesIn_eq_variablesIn (path : Tree) (host : Option Tree) :
    sitesIn path host = variablesIn path host := by
  have hpath := Tree.sites_eq_filterMap_leaves [] path
  rw [sitesIn, variablesIn, leavesIn, List.filterMap_append]
  cases host with
  | none => exact hpath
  | some host => exact congrArg₂ (· ++ ·) (Tree.sites_eq_filterMap_leaves [] host) hpath

end Template

end UriRouting
