import UriRouting.Pattern.Reduced
/-!
# The size of patterns

A pattern is made into two automata over the bytes of a text, one that reads the text onward and one
that reads it backward, and neither of them may take up more than a number of bytes. So a pattern
can be refused because it is too long, or because it repeats a large set too often.

An automaton is a number of states of one size, and some of them hold more: a branching state its
alternatives, and a state for a set its transitions. What a state holds is counted and not made. A
repetition within bounds is written out, so its body counts once for each time.

A set is read byte by byte. Its characters are written as runs of byte ranges, which together are a
tree of states. Read onward, states that are left in the same ways are one state. Read backward,
only runs that start alike share what they start with.
-/

namespace UriRouting.Pattern

/-! ## States -/

/-- The bytes of a state. -/
def stateSize : Nat := 32

/-- The bytes that a state takes up besides for each range of bytes that it has a transition for. -/
def transitionSize : Nat := 8

/-- The bytes that a state takes up besides for each state that it may choose. -/
def alternativeSize : Nat := 4

/-- The bytes of a state that chooses between two others. -/
def choiceSize : Nat := stateSize + 2 * alternativeSize

/-- The direction in which an automaton reads a text. -/
inductive Direction where
  | onward
  | backward

/-- What is counted of each entry of a list, together. -/
def total {α : Type} (count : α → Nat) : List α → Nat
  | [] => 0
  | entry :: entries => count entry + total count entries

/-- The bytes of the states around a capture. Spans are found while the text is read onward. -/
def captureSize : Direction → Nat
  | .onward => 2 * stateSize
  | .backward => 0

/-! ## Sets as runs of bytes -/

/-- Ranges of bytes, one behind another. -/
abbrev ByteRun := List (Nat × Nat)

/-- The runs that write the numbers from `lo` to `hi`. The first byte is a mark and the leading
digits, and `more` bytes with a digit of six bits each come behind it. A run covers whole blocks of
numbers; the first block and the last one are written on their own where they are not whole. -/
def byteRuns (mark : Nat) : Nat → Nat → Nat → List ByteRun
  | 0, lo, hi => [[(mark + lo, mark + hi)]]
  | more + 1, lo, hi =>
    let block := 64 ^ (more + 1)
    let inBlock (digit lo hi : Nat) : List ByteRun :=
      (byteRuns 0x80 more lo hi).map ((mark + digit, mark + digit) :: ·)
    if lo / block = hi / block then inBlock (lo / block) (lo % block) (hi % block)
    else
      let first := if lo % block = 0 then lo / block else lo / block + 1
      let stop := if hi % block + 1 = block then hi / block + 1 else hi / block
      (if lo % block = 0 then [] else inBlock (lo / block) (lo % block) (block - 1)) ++
        (if first < stop then
          [(mark + first, mark + (stop - 1)) :: List.replicate (more + 1) (0x80, 0xBF)]
        else []) ++
        (if hi % block + 1 = block then [] else inBlock (hi / block) 0 (hi % block))

/-- The code points that are written alike: the first and the last of them, the mark of their first
byte, and the number of bytes behind it. -/
def encodings : List (Nat × Nat × Nat × Nat) :=
  [(0, 0x7F, 0, 0), (0x80, 0x7FF, 0xC0, 1), (0x800, 0xD7FF, 0xE0, 2), (0xE000, 0xFFFF, 0xE0, 2),
    (0x10000, 0x10FFFF, 0xF0, 3)]

/-- The ways out of a state, which is given by the runs that lead from it to the end of a character.
Each is given by what is left of the runs with one first range; these stand together. -/
def waysOut (runs : List ByteRun) : List (List ByteRun) :=
  (runs.splitBy fun run run' => run.head? == run'.head?).map (·.map List.tail)

/-- Some states, and those that are reached from them before the end of a character. -/
def statesFrom : Nat → List (List ByteRun) → List (List ByteRun)
  | 0, _ => []
  | n + 1, states =>
    states ++ statesFrom n ((states.flatMap waysOut).filter (· != [[]]))

namespace CharSet

/-- The characters of a set as runs of bytes, in ascending order. -/
def runs (set : CharSet) : List ByteRun :=
  set.ranges.flatMap fun (lo, hi) => encodings.flatMap fun (first, last, mark, more) =>
    if max lo first ≤ min hi last then byteRuns mark more (max lo first) (min hi last) else []

/-- The states of the tree of a set; no character has more than four bytes. -/
def states (set : CharSet) : List (List ByteRun) :=
  statesFrom 4 [set.runs]

/-- The size of a set as a part of an automaton. One character is its bytes, and ASCII characters are
one state with its exit. -/
def size (direction : Direction) (set : CharSet) : Nat :=
  match set.only? with
  | some c => stateSize * c.utf8Size
  | none =>
    if set.ranges.all (·.2 < 0x80) then 2 * stateSize + transitionSize * set.ranges.length
    else match direction with
      | .onward =>
        stateSize +
          total (fun runs => stateSize + transitionSize * (waysOut runs).length) set.states.eraseDups
      | .backward =>
        2 * stateSize + alternativeSize * set.runs.length +
          stateSize * total (fun runs => (waysOut runs).length) set.states

end CharSet

/-! ## Patterns -/

/-- The size of a repetition whose body is as large as given; `takes` tells that the body always
takes a character. -/
def repeatedSize (body : Nat) (takes : Bool) (least : Nat) (most : Option Nat) : Nat :=
  match least, most with
  | 0, none => body + choiceSize + (if takes then 0 else choiceSize + stateSize)
  | 0, some 1 => body + choiceSize + stateSize
  | least, none => least * body + choiceSize
  | least, some most =>
    (if least = 0 then stateSize else least * body) +
      (if least < most then stateSize + (most - least) * (choiceSize + body) else 0)

namespace Node

mutual

/-- The size of a reduced pattern as a part of an automaton. -/
def size (direction : Direction) : Node → Nat
  | .empty => stateSize
  | .flags => stateSize
  | .char c anyCase => (setOf c anyCase).size direction
  | .oneOf set _ => set.size direction
  | .assertion _ => stateSize
  | .group kind body =>
    size direction body + (if kind = .plain then 0 else captureSize direction)
  | .repetition body least most _ => repeatedSize (size direction body) body.alwaysTakes least most
  | .sequence items => sizeAll direction items
  | .branches choices =>
    2 * stateSize + alternativeSize * choices.length + sizeAll direction choices

/-- The size of some patterns together. -/
def sizeAll (direction : Direction) : List Node → Nat
  | [] => 0
  | node :: nodes => size direction node + sizeAll direction nodes

end

/-- Whether a pattern starts with a condition, perhaps behind other items that take nothing. -/
def startsWith (condition : Assertion) (items : List Node) : Bool :=
  (items.takeWhile neverTakes).any fun
    | .assertion condition' => condition == condition'
    | _ => false

/-- The size of what stands in front of a pattern: a search may begin anywhere, unless it can only
begin where the text does. -/
def searchSize (anchored : Bool) : Nat :=
  if anchored then stateSize else choiceSize + 2 * stateSize + transitionSize

/-- Whether a reduced pattern can only match from the end of the text at which reading begins. -/
def isAnchored (node : Node) : Direction → Bool
  | .onward => startsWith .textStart node.itemsOf
  | .backward => startsWith .textEnd node.itemsOf.reverse

/-- The size of the automaton of a reduced pattern, from the search to the arrival. The whole match is
a capture. -/
def automatonSize (direction : Direction) (node : Node) : Nat :=
  searchSize (node.isAnchored direction) + captureSize direction + node.size direction + stateSize

/-- The size of a pattern is that of its larger automaton. -/
def compiledSize (node : Node) : Nat :=
  let reduced := node.reduced
  max (reduced.automatonSize .onward) (reduced.automatonSize .backward)

end Node

end UriRouting.Pattern
