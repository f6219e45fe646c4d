import UriRouting.Pattern.Node
import UriRouting.Pattern.Reduced
/-!
# Patterns as networks

A network is a numbered list of points. At each point a walk through a text has one thing to do,
and then goes on at another point; at a point with a choice it goes on at one of two, of which the
first is preferred. A pattern becomes a network by putting together fragments: a fragment starts at
its first point and leads to a point behind its last one, or wherever else it is told to lead.

A repetition without upper bound is a way back to the start of its body. There are three shapes:

* one choice in front of the body, to which the body leads back, for a body that always takes a
  character;
* one choice behind the body, for a repetition that starts with one pass;
* the second shape, made optional, for any other body.
-/

namespace UriRouting.Pattern

/-- What a walk does at a point; most steps say where it goes on. -/
inductive Step where
  /-- It has arrived. -/
  | finish
  /-- It goes on. -/
  | pass (next : Nat)
  /-- It takes a character of a certain kind. -/
  | take (accepts : Char → Bool) (next : Nat)
  /-- It makes sure that a condition holds at its place in the text. -/
  | check (condition : Assertion) (next : Nat)
  /-- It enters a group. -/
  | enter (next : Nat)
  /-- It leaves the group that it entered last, and captures what it took since then. -/
  | leave (name : String) (next : Nat)
  /-- It tries one point, and another one if the first leads nowhere. -/
  | choose (preferred other : Nat)

/-- A choice between one more pass and the way out; a greedy one prefers the pass. -/
def Step.again (greedy : Bool) (pass out : Nat) : Step :=
  if greedy then .choose pass out else .choose out pass

/-- A part of a network: the number of its points, and their steps once it is known where the
fragment starts and where it leads. -/
structure Fragment where
  /-- The number of points. -/
  size : Nat
  /-- The steps, by the number of the first point and the point that the fragment leads to. -/
  steps : Nat → Nat → List Step
  /-- There is one step for each point. -/
  length_steps : ∀ start next, (steps start next).length = size

attribute [simp] Fragment.length_steps

namespace Fragment

/-- A fragment of one point. -/
def single (step : Nat → Step) : Fragment where
  size := 1
  steps _ next := [step next]
  length_steps _ _ := rfl

/-- Goes on at once. -/
def skip : Fragment :=
  single .pass

/-- Leads nowhere. -/
def never : Fragment :=
  single (.take fun _ => false)

/-- One fragment after another. -/
def andThen (first second : Fragment) : Fragment where
  size := first.size + second.size
  steps start next :=
    first.steps start (start + first.size) ++ second.steps (start + first.size) next
  length_steps := by simp

/-- Either of two fragments, the first one preferred. -/
def orElse (preferred other : Fragment) : Fragment where
  size := preferred.size + other.size + 1
  steps start next :=
    .choose (start + 1) (start + 1 + preferred.size) ::
      (preferred.steps (start + 1) next ++ other.steps (start + 1 + preferred.size) next)
  length_steps := by simp

/-- Captures what a fragment takes. -/
def capture (name : String) (body : Fragment) : Fragment where
  size := body.size + 2
  steps start next :=
    .enter (start + 1) :: (body.steps (start + 1) (start + 1 + body.size) ++ [.leave name next])
  length_steps := by simp

/-- A fragment or nothing; a greedy choice prefers the fragment. -/
def optionally (greedy : Bool) (body : Fragment) : Fragment where
  size := body.size + 1
  steps start next := .again greedy (start + 1) next :: body.steps (start + 1) next
  length_steps := by simp

/-- A fragment a fixed number of times. -/
def copies (body : Fragment) : Nat → Fragment
  | 0 => skip
  | n + 1 => andThen body (copies body n)

/-- A fragment at most a number of times. -/
def atMost (greedy : Bool) (body : Fragment) : Nat → Fragment
  | 0 => skip
  | n + 1 => optionally greedy (andThen body (atMost greedy body n))

/-- A fragment any number of times, with the choice in front of it. -/
def loop (greedy : Bool) (body : Fragment) : Fragment where
  size := body.size + 1
  steps start next := .again greedy (start + 1) next :: body.steps (start + 1) start
  length_steps := by simp

/-- A fragment once or more, with the choice behind it. -/
def oneOrMore (greedy : Bool) (body : Fragment) : Fragment where
  size := body.size + 1
  steps start next := body.steps start (start + body.size) ++ [.again greedy start next]
  length_steps := by simp

/-- A fragment within bounds; `takes` tells that it always takes a character. -/
def repeated (body : Fragment) (takes : Bool) (least : Nat) (most : Option Nat) (greedy : Bool) :
    Fragment :=
  match most, least with
  | some most, least => andThen (copies body least) (atMost greedy body (most - least))
  | none, 0 => if takes then loop greedy body else optionally greedy (oneOrMore greedy body)
  | none, least + 1 => andThen (copies body least) (oneOrMore greedy body)

end Fragment

/-- A list of steps by the number of their point; walks start at the first one. -/
abbrev Network := Array Step

namespace Node

/-- Whether a character matches another, perhaps in any case. -/
def accepts (c : Char) (anyCase : Bool) (d : Char) : Bool :=
  if anyCase then Text.sameFold c d else d == c

mutual

/-- A pattern as a fragment. -/
def fragment : Node → Fragment
  | .empty => .skip
  | .flags => .skip
  | .char c anyCase => .single (.take (accepts c anyCase))
  | .oneOf set _ => .single (.take set.contains)
  | .assertion condition => .single (.check condition)
  | .group kind body =>
    match kind with
    | .named name => (fragment body).capture name
    | _ => fragment body
  | .repetition body least most greedy =>
    (fragment body).repeated body.alwaysTakes least most greedy
  | .sequence items => fragmentOfAll items
  | .branches choices => fragmentOfAny choices

/-- Patterns one after another. -/
def fragmentOfAll : List Node → Fragment
  | [] => .skip
  | node :: nodes => (fragment node).andThen (fragmentOfAll nodes)

/-- Patterns of which an earlier one is preferred. -/
def fragmentOfAny : List Node → Fragment
  | [] => .never
  | node :: nodes => (fragment node).orElse (fragmentOfAny nodes)

end

/-- A pattern as a network. -/
def network (node : Node) : Network :=
  let whole := node.reduced.fragment
  (whole.steps 0 whole.size ++ [Step.finish]).toArray

end Node

end UriRouting.Pattern
