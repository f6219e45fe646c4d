/-!
# Double-precision numbers by their bits

A number is its 64-bit word in the binary64 format: a sign bit, eleven exponent bits and 52
fraction bits. Comparison and rounding are exact arithmetic on natural numbers, so every result is
determined by the words alone.
-/

namespace UriRouting

/-- A double-precision number, given by its word. -/
structure Binary64 where
  /-- The word of the number. -/
  bits : UInt64
deriving DecidableEq

namespace Binary64

/-! ## The fields of a word -/

/-- Whether the sign bit is set. -/
def isNegative (x : Binary64) : Bool :=
  0x8000000000000000 ≤ x.bits.toNat

/-- The word without its sign bit. -/
def magnitude (x : Binary64) : Nat :=
  x.bits.toNat % 0x8000000000000000

/-- The magnitude of the two infinities. -/
def infiniteMagnitude : Nat :=
  2047 * 0x10000000000000

/-- The number with the given sign and magnitude. -/
def ofMagnitude (negative : Bool) (magnitude : Nat) : Binary64 :=
  ⟨UInt64.ofNat (magnitude + if negative then 0x8000000000000000 else 0)⟩

/-- An infinity. -/
def infinity (negative : Bool) : Binary64 :=
  ofMagnitude negative infiniteMagnitude

/-- The quiet value that is not a number. -/
def notANumber (negative : Bool) : Binary64 :=
  ofMagnitude negative (infiniteMagnitude + 0x8000000000000)

/-- Whether a word stands for no number. -/
def isNaN (x : Binary64) : Bool :=
  infiniteMagnitude < x.magnitude

/-- Whether a word stands for a number other than an infinity. -/
def isFinite (x : Binary64) : Bool :=
  x.magnitude < infiniteMagnitude

/-- The number without its sign. -/
def abs (x : Binary64) : Binary64 :=
  ofMagnitude false x.magnitude

/-- The integer that a finite number is a multiple of a power of two by. -/
def significand (x : Binary64) : Nat :=
  let fraction := x.magnitude % 0x10000000000000
  if x.magnitude < 0x10000000000000 then fraction else 0x10000000000000 + fraction

/-- The power of two that goes with the significand. -/
def exponent (x : Binary64) : Int :=
  if x.magnitude < 0x10000000000000 then -1074 else (x.magnitude / 0x10000000000000 : Nat) - 1075

/-! ## Order

Magnitudes are ordered like the numbers that they stand for, so a number's place among all numbers
is its magnitude with its sign. The two zeros share a place, and what is no number has none.
-/

/-- The place of a number among all numbers. -/
def place (x : Binary64) : Int :=
  if x.isNegative then -x.magnitude else x.magnitude

/-- Numeric equality: the zeros are equal, and what is no number differs even from itself. -/
def equals (x y : Binary64) : Bool :=
  !x.isNaN && !y.isNaN && x.place == y.place

/-- Numeric strict order; false when either side is no number. -/
def below (x y : Binary64) : Bool :=
  !x.isNaN && !y.isNaN && decide (x.place < y.place)

/-- Numeric order; false when either side is no number. -/
def atMost (x y : Binary64) : Bool :=
  !x.isNaN && !y.isNaN && decide (x.place ≤ y.place)

/-! ## Rounding -/

/-- The fraction `num / den` divided by `base` to the power `q`. -/
def divPow (num den base : Nat) (q : Int) : Nat × Nat :=
  if 0 ≤ q then (num, den * base.pow q.toNat) else (num * base.pow (-q).toNat, den)

/-- The integer nearest to a fraction, a half going to the even neighbour. -/
def roundHalfEven (num den : Nat) : Nat :=
  let whole := num / den
  let rest := num % den
  if 2 * rest < den then whole
  else if den < 2 * rest then whole + 1
  else whole + whole % 2

/-- The greatest power of two that does not exceed a positive fraction. -/
def floorLog2 (num den : Nat) : Int :=
  let guess : Int := (num.log2 : Int) - den.log2
  let (n, d) := divPow num den 2 guess
  if d ≤ n then guess else guess - 1

/-- The magnitude of the number nearest to a fraction: 53 significant bits, or fewer where the
format has no smaller power of two; a half goes to the even neighbour, and what is too great
becomes infinite. -/
def nearestMagnitude (num den : Nat) : Nat :=
  if num = 0 then 0
  else
    let q := max (floorLog2 num den - 52) (-1074)
    let (n, d) := divPow num den 2 q
    min infiniteMagnitude ((q + 1074).toNat * 0x10000000000000 + roundHalfEven n d)

/-- The number nearest to a fraction, with a sign. -/
def nearest (negative : Bool) (num den : Nat) : Binary64 :=
  ofMagnitude negative (nearestMagnitude num den)

/-- The number nearest to an integer. -/
def ofInt (i : Int) : Binary64 :=
  nearest (i < 0) i.natAbs 1

/-- A finite number's absolute value as a fraction. -/
def toFraction (x : Binary64) : Nat × Nat :=
  divPow x.significand 1 2 (-x.exponent)

end Binary64

end UriRouting
