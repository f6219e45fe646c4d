import UriRouting.Pattern.Network
/-!
# Walks through a network

A text is matched by walking through the network of a pattern. Walks that still have to be tried
wait in a list, the preferred one first. The first of them makes its step, and the walks that it may
go on as take its place; so a choice is only revised when all that followed from it has failed. A
walk that comes to a point at which another one was before, at the same place in the text, is given
up. The other one has failed there, or it is the same walk, which has come back without having taken
a character.
-/

namespace UriRouting.Pattern

/-! ## Places in a text -/

/-- Whether a word character stands at a place. -/
def isWordAt (text : Array Char) (i : Nat) : Bool :=
  text[i]?.any Text.isWord

/-- Whether a word character stands in front of a place. -/
def isWordBefore (text : Array Char) (i : Nat) : Bool :=
  i != 0 && isWordAt text (i - 1)

/-- Whether a condition holds at a place of a text. -/
def Assertion.holds (condition : Assertion) (text : Array Char) (i : Nat) : Bool :=
  let before := isWordBefore text i
  let after := isWordAt text i
  match condition with
  | .textStart => i == 0
  | .textEnd => i == text.size
  | .lineStart => i == 0 || text[i - 1]? == some '\n'
  | .lineEnd => i == text.size || text[i]? == some '\n'
  | .wordBoundary => before != after
  | .noWordBoundary => before == after
  | .wordStart => !before && after
  | .wordEnd => before && !after
  | .wordStartHalf => !before
  | .wordEndHalf => !after

/-! ## Walks -/

/-- A captured span: the name of its group, where it starts and where it stops. -/
structure Span where
  /-- The name of the group. -/
  name : String
  /-- The place at which the span starts. -/
  start : Nat
  /-- The place at which the span stops. -/
  stop : Nat
deriving DecidableEq

/-- A walk through a network and a text. -/
structure Walk where
  /-- The point of the network that it has reached. -/
  point : Nat
  /-- The place in the text that it has reached. -/
  place : Nat
  /-- The places at which it entered the groups that it is in, the innermost one first. -/
  entered : List Nat := []
  /-- The spans that it captured, the latest first. -/
  spans : List Span := []
deriving DecidableEq

namespace Walk

/-- The walks that a walk may go on as after a step, the preferred one first. -/
def after (text : Array Char) (walk : Walk) : Step → List Walk
  | .finish => []
  | .pass next => [{ walk with point := next }]
  | .take accepts next =>
    if text[walk.place]?.any accepts then [{ walk with point := next, place := walk.place + 1 }]
    else []
  | .check condition next =>
    if condition.holds text walk.place then [{ walk with point := next }] else []
  | .enter next => [{ walk with point := next, entered := walk.place :: walk.entered }]
  | .leave name next =>
    match walk.entered with
    | [] => []
    | start :: outer =>
      [{ walk with
        point := next
        entered := outer
        spans := ⟨name, start, walk.place⟩ :: walk.spans }]
  | .choose preferred other => [{ walk with point := preferred }, { walk with point := other }]

/-- The number of a walk's point and place among all of them. -/
def cell (network : Network) (walk : Walk) : Nat :=
  walk.place * network.size + walk.point

/-- Each mark in the table leaves fewer cells without one. -/
theorem count_false_set_lt {tried : Array Bool} {i : Nat} (fresh : tried[i]? = some false) :
    (tried.setIfInBounds i true).count false < tried.count false := by
  obtain ⟨inside, untried⟩ := Array.getElem?_eq_some_iff.1 fresh
  have positive : 0 < tried.count false :=
    Array.count_pos_iff.2 (untried ▸ Array.getElem_mem inside)
  rw [Array.setIfInBounds, dif_pos inside, Array.count_set, untried]
  show tried.count false - 1 + 0 < tried.count false
  omega

/-- Tries walks one after another and gives the first that arrives. The table tells by the number
of a point and a place whether a walk has been there. -/
def firstToFinish (network : Network) (text : Array Char) (walks : List Walk)
    (tried : Array Bool) : Option Walk :=
  match walks with
  | [] => none
  | walk :: waiting =>
    if _fresh : tried[walk.cell network]? = some false then
      match network[walk.point]? with
      | some .finish => some walk
      | step? =>
        firstToFinish network text (step?.elim [] (walk.after text) ++ waiting)
          (tried.setIfInBounds (walk.cell network) true)
    else firstToFinish network text waiting tried
termination_by (tried.count false, walks.length)
decreasing_by
  · exact .left _ _ (count_false_set_lt _fresh)
  · exact .right _ (Nat.lt_succ_self _)

/-- A walk that starts at a place. -/
def startingAt (place : Nat) : Walk :=
  { point := 0, place := place }

end Walk

/-- The first to arrive of the walks that start in front of a text or at a place further on, an
earlier start preferred. -/
def Network.firstWalk? (network : Network) (text : Array Char) : Option Walk :=
  let places := text.size + 1
  Walk.firstToFinish network text ((List.range places).map Walk.startingAt)
    (Array.replicate (places * network.size) false)

end UriRouting.Pattern
