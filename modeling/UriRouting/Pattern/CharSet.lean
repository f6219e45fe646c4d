import UriRouting.Text.Blank
import UriRouting.Text.Letters
import UriRouting.Text.CaseFold
/-!
# Sets of characters in a pattern

The set that one item of a pattern accepts. Sets are kept in the normal form of their ranges, so two
sets that were written in different ways are equal when they have the same ranges.
-/

namespace UriRouting.Pattern

/-- A set of characters. -/
structure CharSet where
  /-- The ranges of its code points. -/
  ranges : CharRanges
deriving DecidableEq

namespace CharSet

/-- Whether a character is in the set. -/
def contains (set : CharSet) (c : Char) : Bool :=
  set.ranges.contains c

/-- No character. -/
def nothing : CharSet :=
  ⟨[]⟩

/-- The characters from `first` to `last`. -/
def range (first last : Char) : CharSet :=
  ⟨[(first.toNat, last.toNat)]⟩

/-- The set of one character. -/
def single (c : Char) : CharSet :=
  .range c c

/-- The characters in either set. -/
def union (left right : CharSet) : CharSet :=
  ⟨left.ranges.union right.ranges⟩

/-- The characters in both sets. -/
def inter (left right : CharSet) : CharSet :=
  ⟨left.ranges.inter right.ranges⟩

/-- The characters in the first set but not in the second. -/
def difference (left right : CharSet) : CharSet :=
  ⟨left.ranges.difference right.ranges⟩

/-- The characters in exactly one of two sets. -/
def symmetricDifference (left right : CharSet) : CharSet :=
  (left.union right).difference (left.inter right)

/-- The characters outside the set. -/
def complement (set : CharSet) : CharSet :=
  ⟨set.ranges.complement⟩

/-- The characters that differ only in case from one in the set. Characters that are equal up to
case fold to the same character; so this character comes first, and then all that fold to it. -/
def anyCase (set : CharSet) : CharSet :=
  let folded := Text.foldPairs.foldl
    (fun folded (c, target) => if set.contains c then folded.union (single target) else folded) set
  Text.foldPairs.foldl
    (fun all (c, target) => if folded.contains target then all.union (single c) else all) folded

/-- The set, or its complement. -/
def negateIf (negated : Bool) (set : CharSet) : CharSet :=
  if negated then set.complement else set

/-- The set, closed under changes of case if asked for. -/
def foldIf (folded : Bool) (set : CharSet) : CharSet :=
  if folded then set.anyCase else set

/-- The characters in any of some sets. -/
def unionAll (sets : List CharSet) : CharSet :=
  sets.foldr union nothing

/-- Decimal digits. -/
def digit : CharSet :=
  ⟨Text.digitRanges⟩

/-- Blanks. -/
def blank : CharSet :=
  ⟨Text.blankRanges⟩

/-- Word characters. -/
def word : CharSet :=
  ⟨Text.wordRanges⟩

/-- The only character of a set, if it has just one. -/
def only? (set : CharSet) : Option Char :=
  match set.ranges with
  | [(lo, hi)] => if lo = hi then some (Char.ofNat lo) else none
  | _ => none

/-- Ranges of ASCII characters as one set. -/
def ofRanges (ranges : List (Char × Char)) : CharSet :=
  unionAll (ranges.map fun (first, last) => .range first last)

/-- The ASCII class of a name, such as `alpha`. -/
def named? (name : String) : Option CharSet :=
  (fun ranges => ofRanges ranges) <$>
    match name with
    | "alnum" => some [('0', '9'), ('A', 'Z'), ('a', 'z')]
    | "alpha" => some [('A', 'Z'), ('a', 'z')]
    | "ascii" => some [('\x00', '\x7f')]
    | "blank" => some [('\t', '\t'), (' ', ' ')]
    | "cntrl" => some [('\x00', '\x1f'), ('\x7f', '\x7f')]
    | "digit" => some [('0', '9')]
    | "graph" => some [('!', '~')]
    | "lower" => some [('a', 'z')]
    | "print" => some [(' ', '~')]
    | "punct" => some [('!', '/'), (':', '@'), ('[', '\x60'), ('\x7b', '~')]
    | "space" => some [('\t', '\r'), (' ', ' ')]
    | "upper" => some [('A', 'Z')]
    | "word" => some [('0', '9'), ('A', 'Z'), ('_', '_'), ('a', 'z')]
    | "xdigit" => some [('0', '9'), ('A', 'F'), ('a', 'f')]
    | _ => none

@[simp] theorem contains_single (c d : Char) : (single c).contains d = (d == c) := by
  simp only [single, range, contains, CharRanges.contains, List.any_cons, List.any_nil,
    Bool.or_false]
  rw [Bool.eq_iff_iff]
  simp only [Bool.and_eq_true, decide_eq_true_eq, beq_iff_eq]
  constructor
  · intro h
    exact Char.toNat_inj.1 (Nat.le_antisymm h.2 h.1)
  · rintro rfl
    exact ⟨Nat.le_refl _, Nat.le_refl _⟩

end CharSet

end UriRouting.Pattern
