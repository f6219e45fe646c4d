/-!
# Sets of characters given by ranges

A set of characters, such as the table of a character property, is a list of closed ranges of code
points. Tables and the results of all operations here are in normal form: the ranges ascend, and
between two of them at least one code point is missing. The surrogates are code points without a
character; ranges may run across them, but neither start nor end in them, and two ranges that only
the surrogates separate stay two ranges.

Main statement: `contains_insert`, a set with one more range has the characters of both.
-/

namespace UriRouting

/-- A list of closed ranges of code points. -/
abbrev CharRanges := List (Nat × Nat)

namespace CharRanges

/-- Whether a character lies in one of the ranges. -/
def contains (ranges : CharRanges) (c : Char) : Bool :=
  ranges.any fun (lo, hi) => lo ≤ c.toNat && c.toNat ≤ hi

/-! ## Union -/

/-- A set with one more range, which swallows the ranges that it meets or touches. -/
def insert (lo hi : Nat) : CharRanges → CharRanges
  | [] => [(lo, hi)]
  | (lo', hi') :: rest =>
    if hi + 1 < lo' then (lo, hi) :: (lo', hi') :: rest
    else if hi' + 1 < lo then (lo', hi') :: insert lo hi rest
    else insert (min lo lo') (max hi hi') rest

/-- The characters in either set. -/
def union (left right : CharRanges) : CharRanges :=
  left.foldr (fun (lo, hi) ranges => insert lo hi ranges) right

/-! ## Intersection and difference -/

/-- The characters in both sets. -/
def inter (left right : CharRanges) : CharRanges :=
  left.flatMap fun (lo, hi) => right.filterMap fun (lo', hi') =>
    if max lo lo' ≤ min hi hi' then some (max lo lo', min hi hi') else none

/-- The code point of the character after another one. -/
def next (n : Nat) : Nat :=
  if n = 0xD7FF then 0xE000 else n + 1

/-- The code point of the character before another one. -/
def previous (n : Nat) : Nat :=
  if n = 0xE000 then 0xD7FF else n - 1

/-- The characters of one range that are not in a set. -/
def without (lo hi : Nat) : CharRanges → CharRanges
  | [] => [(lo, hi)]
  | (lo', hi') :: rest =>
    if hi' < lo then without lo hi rest
    else if hi < lo' then [(lo, hi)]
    else
      (if lo < lo' then [(lo, previous lo')] else []) ++
        (if hi' < hi then without (next hi') hi rest else [])

/-- The characters in the first set but not in the second. -/
def difference (left right : CharRanges) : CharRanges :=
  left.flatMap fun (lo, hi) => without lo hi right

/-! ## Complement -/

/-- The greatest code point. -/
def greatest : Nat := 0x10FFFF

/-- What lies behind a code point and not in the ranges after it. Where two ranges are separated by
the surrogates alone, nothing lies between them, and the two characters at that border are taken. -/
def complementAfter (hi : Nat) : CharRanges → CharRanges
  | [] => if hi < greatest then [(next hi, greatest)] else []
  | (lo', hi') :: rest =>
    (min (next hi) (previous lo'), max (next hi) (previous lo')) :: complementAfter hi' rest

/-- The characters outside a set. -/
def complement : CharRanges → CharRanges
  | [] => [(0, greatest)]
  | (lo, hi) :: rest => (if 0 < lo then [(0, previous lo)] else []) ++ complementAfter hi rest

/-! ## The law of insertion -/

theorem contains_insert {lo hi : Nat} {ranges : CharRanges} (ordered : lo ≤ hi)
    (h : ∀ r ∈ ranges, r.1 ≤ r.2) (c : Char) :
    (insert lo hi ranges).contains c
      = (decide (lo ≤ c.toNat) && decide (c.toNat ≤ hi) || ranges.contains c) := by
  induction ranges generalizing lo hi with
  | nil => simp [insert, contains]
  | cons range rest ih =>
    obtain ⟨lo', hi'⟩ := range
    have ordered' : lo' ≤ hi' := h (lo', hi') List.mem_cons_self
    have rest_ordered : ∀ r ∈ rest, r.1 ≤ r.2 := fun r hr => h r (List.mem_cons_of_mem _ hr)
    rw [insert]
    split
    · rfl
    split
    · have := ih ordered rest_ordered
      simp only [contains, List.any_cons] at this ⊢
      rw [this, ← Bool.or_assoc, ← Bool.or_assoc,
        Bool.or_comm (decide (lo' ≤ c.toNat) && decide (c.toNat ≤ hi'))]
    · have := @ih (min lo lo') (max hi hi') (by omega) rest_ordered
      simp only [contains, List.any_cons] at this ⊢
      rw [this, ← Bool.or_assoc]
      congr 1
      rw [Bool.eq_iff_iff]
      simp only [Bool.and_eq_true, Bool.or_eq_true, decide_eq_true_eq]
      omega

end CharRanges

end UriRouting
