import UriRouting.Pattern.Node
/-!
# Reduced patterns

A pattern is reduced before it is matched: flags and plain groups go away, sequences and
alternatives are not nested in themselves, a set of one character is that character, and a
repetition is there only if it can repeat something. The texts that match stay the same.

Branches share what they start with. When all branches of an alternative start with the same pieces,
these pieces are matched first and the choice comes after them. A piece is an item of a branch, or a
run of characters as a whole. This can make another way the preferred one, because the choice
between the branches is now made last. Nothing is shared unless each branch has at least two pieces,
and a piece that captures is never shared.
-/

namespace UriRouting.Pattern

namespace Node

/-! ## Sequences and repetitions -/

/-- The items of a pattern, one after another. -/
def itemsOf : Node → List Node
  | .empty => []
  | .sequence items => items
  | node => [node]

/-- A repetition. What never takes a character is repeated at most once. -/
def ofRepetition (body : Node) (least : Nat) (most : Option Nat) (greedy : Bool) : Node :=
  let least := if body.neverTakes then min least 1 else least
  let most := if body.neverTakes then some (min (most.getD 1) 1) else most
  if most == some 0 then .empty
  else if least == 1 && most == some 1 then body
  else .repetition body least most greedy

/-! ## Branches -/

/-- The branches of a pattern. -/
def choicesOf : Node → List Node
  | .branches choices => choices
  | node => [node]

/-- The set of a character, perhaps in any case. -/
def setOf (c : Char) (anyCase : Bool) : CharSet :=
  if anyCase then .unionAll ((Text.caseVariants c).map .single) else .single c

/-- One character of a set. -/
def ofSet (set : CharSet) : Node :=
  match set.only? with
  | some c => .char c false
  | none => .oneOf set 0

/-- The set of a pattern that takes just one character. -/
def asSet? : Node → Option CharSet
  | .char c anyCase => some (setOf c anyCase)
  | .oneOf set _ => some set
  | _ => none

/-- Whether a pattern takes one character, and only one character will do. -/
def isLiteral (node : Node) : Bool :=
  node.asSet?.any (·.only?.isSome)

/-- Whether a pattern takes one character, and none or several will do. -/
def isClass (node : Node) : Bool :=
  node.asSet?.any (·.only?.isNone)

mutual

/-- Whether two patterns are the same and capture nothing. -/
def alike : Node → Node → Bool
  | .empty, .empty => true
  | .char c anyCase, .char d anyCase' => setOf c anyCase == setOf d anyCase'
  | .char c anyCase, .oneOf set _ => setOf c anyCase == set
  | .oneOf set _, .char c anyCase => set == setOf c anyCase
  | .oneOf set _, .oneOf set' _ => set == set'
  | .assertion condition, .assertion condition' => condition == condition'
  | .repetition body least most greedy, .repetition body' least' most' greedy' =>
    alike body body' && least == least' && most == most' && greedy == greedy'
  | .sequence items, .sequence items' => allAlike items items'
  | .branches choices, .branches choices' => allAlike choices choices'
  | _, _ => false

/-- Whether two lists of patterns are the same and capture nothing. -/
def allAlike : List Node → List Node → Bool
  | [], [] => true
  | node :: nodes, node' :: nodes' => alike node node' && allAlike nodes nodes'
  | _, _ => false

end

/-- The pieces of a branch: runs of characters, and single other items. -/
def pieces (branch : Node) : List (List Node) :=
  branch.itemsOf.splitBy fun item item' => item.isLiteral && item'.isLiteral

/-- The number of pieces with which two branches start alike. -/
def commonPieces : List (List Node) → List (List Node) → Nat
  | piece :: pieces, piece' :: pieces' =>
    if allAlike piece piece' then commonPieces pieces pieces' + 1 else 0
  | _, _ => 0

/-- The number of pieces that all of some branches share. -/
def sharedPieces : List (List (List Node)) → Nat
  | first :: others =>
    if others.isEmpty || (first :: others).any (·.length < 2) then 0
    else others.foldl (fun n other => min n (commonPieces first other)) first.length
  | [] => 0

/-- An alternative. Branches of one character each are put together to one set, if each of them is a
literal or none of them is. -/
def ofChoices (choices : List Node) : Node :=
  if choices.all isLiteral || choices.all isClass then
    ofSet (CharSet.unionAll (choices.filterMap asSet?))
  else .branches choices

/-- An alternative, with what its branches share in front of it. -/
def sharing (choices : List Node) : Node :=
  let branches := choices.map pieces
  match sharedPieces branches with
  | 0 => ofChoices choices
  | n =>
    let shared := (branches.headD []).take n
    let rests := branches.map fun pieces => ofItems (pieces.drop n).flatten
    ofItems (shared.flatten ++ [ofChoices (rests.flatMap choicesOf)])

/-! ## The reduced form -/

mutual

/-- The reduced form of a pattern. -/
def reduced : Node → Node
  | .flags => .empty
  | .group .plain body => reduced body
  | .group kind body => .group kind (reduced body)
  | .oneOf set _ => ofSet set
  | .repetition body least most greedy => ofRepetition (reduced body) least most greedy
  | .sequence items => ofItems ((reducedAll items).flatMap itemsOf)
  | .branches choices => sharing ((reducedAll choices).flatMap choicesOf)
  | node => node

/-- The reduced forms of some patterns. -/
def reducedAll : List Node → List Node
  | [] => []
  | node :: nodes => reduced node :: reducedAll nodes

end

end Node

end UriRouting.Pattern
