import UriRouting.Pattern.CharSet
/-!
# Pattern trees

A pattern is a tree of items. Items of a sequence and branches of an alternative are kept in one
list each, so that the nesting of a pattern is the nesting of its written form.
-/

namespace UriRouting.Pattern

/-- A condition on a place in a text; it consumes nothing. -/
inductive Assertion where
  | textStart
  | textEnd
  | lineStart
  | lineEnd
  | wordBoundary
  | noWordBoundary
  | wordStart
  | wordEnd
  | wordStartHalf
  | wordEndHalf
deriving DecidableEq

/-- What a group is for. -/
inductive GroupKind where
  /-- It only holds items together. -/
  | plain
  /-- It captures what it matches, but nobody can ask for it by name. -/
  | unnamed
  /-- It captures what it matches under a name. -/
  | named (name : String)
deriving DecidableEq

/-- The name under which a group captures. -/
def GroupKind.name? : GroupKind → Option String
  | .named name => some name
  | _ => none

/-- A pattern. -/
inductive Node where
  /-- Nothing, as between two bars. -/
  | empty
  /-- A change of flags; it matches nothing but takes a place in its sequence. -/
  | flags
  /-- One character, perhaps in any case. -/
  | char (c : Char) (anyCase : Bool)
  /-- One character of a set; `nesting` is the nesting of brackets that wrote the set. -/
  | oneOf (set : CharSet) (nesting : Nat)
  /-- A condition on the place. -/
  | assertion (condition : Assertion)
  /-- A group. -/
  | group (kind : GroupKind) (body : Node)
  /-- A repetition; without `most` there is no upper bound. -/
  | repetition (body : Node) (least : Nat) (most : Option Nat) (greedy : Bool)
  /-- Items one after another. -/
  | sequence (items : List Node)
  /-- Branches, of which an earlier one is preferred. -/
  | branches (choices : List Node)

namespace Node

/-- A sequence of items, which is the item itself when there is only one. -/
def ofItems : List Node → Node
  | [] => .empty
  | [item] => item
  | items => .sequence items

mutual

/-- The depth of a pattern: each group, repetition, alternative and sequence counts one, and a
set counts its brackets. -/
def nesting : Node → Nat
  | .empty => 0
  | .flags => 0
  | .char _ _ => 0
  | .oneOf _ nesting => nesting
  | .assertion _ => 0
  | .group _ body => nesting body + 1
  | .repetition body _ _ _ => nesting body + 1
  | .sequence items => nestingAll items + 1
  | .branches choices => nestingAll choices + 1

/-- The greatest depth among some patterns. -/
def nestingAll : List Node → Nat
  | [] => 0
  | node :: nodes => max (nesting node) (nestingAll nodes)

end

mutual

/-- The names of the groups that have one, in the order of their opening parentheses. -/
def groupNames : Node → List String
  | .group kind body => kind.name?.toList ++ groupNames body
  | .repetition body _ _ _ => groupNames body
  | .sequence items => groupNamesOf items
  | .branches choices => groupNamesOf choices
  | _ => []

/-- The names of the groups of some patterns. -/
def groupNamesOf : List Node → List String
  | [] => []
  | node :: nodes => groupNames node ++ groupNamesOf nodes

end

mutual

/-- The least number of characters that a way through a pattern takes. There is no answer where a
part of the pattern leads nowhere because no character is in its set. -/
def leastLength : Node → Option Nat
  | .empty => some 0
  | .flags => some 0
  | .char _ _ => some 1
  | .oneOf set _ => if set = .nothing then none else some 1
  | .assertion _ => some 0
  | .group _ body => leastLength body
  | .repetition body least _ _ => (leastLength body).map (least * ·)
  | .sequence items => leastLengthOfAll items
  | .branches choices => leastLengthOfAny choices

/-- The least number of characters for some patterns one after another. -/
def leastLengthOfAll : List Node → Option Nat
  | [] => some 0
  | node :: nodes => do return (← leastLength node) + (← leastLengthOfAll nodes)

/-- The least number of characters for one of some patterns. -/
def leastLengthOfAny : List Node → Option Nat
  | [] => none
  | [node] => leastLength node
  | node :: nodes => do return min (← leastLength node) (← leastLengthOfAny nodes)

end

/-- Whether each way through a pattern takes a character, as far as its least length tells. -/
def alwaysTakes (node : Node) : Bool :=
  node.leastLength.any (0 < ·)

mutual

/-- Whether no way through a pattern takes a character. -/
def neverTakes : Node → Bool
  | .empty => true
  | .flags => true
  | .char _ _ => false
  | .oneOf _ _ => false
  | .assertion _ => true
  | .group _ body => neverTakes body
  | .repetition body _ most _ => most == some 0 || neverTakes body
  | .sequence items => noneTakes items
  | .branches choices => noneTakes choices

/-- Whether none of some patterns ever takes a character. -/
def noneTakes : List Node → Bool
  | [] => true
  | node :: nodes => neverTakes node && noneTakes nodes

end

end Node

end UriRouting.Pattern
