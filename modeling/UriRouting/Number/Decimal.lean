import UriRouting.Number.Integer
import UriRouting.Number.Binary64
/-!
# Decimal texts of double-precision numbers

Reading rounds correctly: the number nearest to the decimal is taken, whatever the number of digits.
Writing gives the fewest digits that read back as the same number and, among those, the ones nearest
to it.
-/

namespace UriRouting.Binary64

open Number

/-! ## Reading -/

/-- The number nearest to `digits` times ten to the power `exponent`. A power of ten that is far out
of range is settled without computing it. -/
def ofDecimal (negative : Bool) (digits : Nat) (exponent : Int) : Binary64 :=
  let size : Int := exponent + (Nat.toDigits 10 digits).length
  if digits = 0 then ofMagnitude negative 0
  else if 310 < size then infinity negative
  else if size < -330 then ofMagnitude negative 0
  else
    let (num, den) := divPow digits 1 10 (-exponent)
    nearest negative num den

/-- Reads the part of a decimal after its digits: nothing, or an `e` and an integer. -/
def readExponent : List Char → Option Int
  | [] => some 0
  | c :: cs =>
    let (negative, digits) := splitSign cs
    if (c == 'e' || c == 'E') && isDigits digits then some (signed negative (ofDigits digits))
    else none

/-- Reads an unsigned decimal: digits with at most one point among them, at least one digit, and an
optional exponent. The answer is an integer and the power of ten that goes with it. -/
def readDecimal (cs : List Char) : Option (Nat × Int) :=
  let whole := cs.takeWhile Char.isDigit
  let (fraction, rest) :=
    match cs.dropWhile Char.isDigit with
    | '.' :: more => (more.takeWhile Char.isDigit, more.dropWhile Char.isDigit)
    | more => ([], more)
  if whole.isEmpty && fraction.isEmpty then none
  else (readExponent rest).map fun e => (ofDigits (whole ++ fraction), e - fraction.length)

/-- Reads a number from the whole of a text: an optional sign, then a decimal, an infinity or the
value that is no number, in any case of letters. -/
def ofText? (cs : List Char) : Option Binary64 :=
  let (negative, body) := splitSign cs
  match readDecimal body with
  | some (digits, exponent) => some (ofDecimal negative digits exponent)
  | none =>
    let word := String.ofList (body.map Char.toLower)
    if word == "inf" || word == "infinity" then some (infinity negative)
    else if word == "nan" then some (notANumber negative)
    else none

/-! ## Writing -/

/-- The greatest power of ten that does not exceed a positive fraction. -/
def floorLog10 (num den : Nat) : Int :=
  if den ≤ num then (Nat.toDigits 10 (num / den)).length - 1
  else
    let size := (Nat.toDigits 10 (den / num)).length
    if den ≤ num * Nat.pow 10 (size - 1) then 1 - size else -size

/-- The two neighbours of a fraction among the multiples of ten to the power `p`, the nearer one
first; of two equally near ones the greater comes first. -/
def neighbours (num den : Nat) (p : Int) : List (Nat × Int) :=
  let (n, d) := divPow num den 10 p
  let floor := n / d
  if 2 * (n % d) < d then [(floor, p), (floor + 1, p)] else [(floor + 1, p), (floor, p)]

/-- All digits of a finite number. -/
def exactDecimal (x : Binary64) : Nat × Int :=
  let q := x.exponent
  if 0 ≤ q then (x.significand * Nat.pow 2 q.toNat, 0) else (x.significand * Nat.pow 5 (-q).toNat, q)

/-- The decimal with the fewest digits that reads back as the absolute value of a finite number
other than zero, and of those the nearest to it. Seventeen digits are always enough. -/
def shortestDecimal (x : Binary64) : Nat × Int :=
  let (num, den) := x.toFraction
  let top := floorLog10 num den
  let reads : Nat × Int → Bool := fun (digits, p) => ofDecimal false digits p == x.abs
  ((List.range 17).findSome? fun (n : Nat) => (neighbours num den (top - n)).find? reads).getD
    x.exactDecimal

/-- A decimal whose last digit is not zero, as its digits and the place of the point counted from
the first of them. -/
def significantDigits (digits : Nat) (exponent : Int) : List Char × Int :=
  let all := Nat.toDigits 10 digits
  ((all.reverse.dropWhile (· == '0')).reverse, all.length + exponent)

/-- How numbers are written: whether an integer keeps a point and a zero, and at which places of the
point an exponent takes over. -/
structure NumberStyle where
  /-- Whether a number without a fraction is written with one, as in `2.0`. -/
  keepsFraction : Bool
  /-- The places of the point that need an exponent. -/
  needsExponent : Int → Bool

/-- Inside a URI a number is written positionally, and an integer has no point. -/
def plainStyle : NumberStyle :=
  ⟨false, fun _ => false⟩

/-- As a rule argument a number always shows that it is not an integer: it keeps its fraction, and
from 10¹⁶ on and below 10⁻⁴ it has an exponent. -/
def argumentStyle : NumberStyle :=
  ⟨true, fun point => point < -3 || 16 < point⟩

/-- Digits with a point at the given place, padded with zeros where there are too few. -/
def positional (digits : List Char) (point : Int) (keepsFraction : Bool) : List Char :=
  if point ≤ 0 then
    '0' :: '.' :: List.replicate (-point).toNat '0' ++ digits
  else
    let whole := digits.take point.toNat ++ List.replicate (point.toNat - digits.length) '0'
    match digits.drop point.toNat with
    | [] => whole ++ if keepsFraction then ['.', '0'] else []
    | fraction => whole ++ '.' :: fraction

/-- Digits with the point after the first of them, and the power of ten that is left. -/
def scientific (digits : List Char) (point : Int) : List Char :=
  let power := 'e' :: writeSigned (point - 1)
  match digits with
  | [] => power
  | [d] => d :: power
  | d :: more => d :: '.' :: more ++ power

/-- Writes a finite number other than zero, without its sign. -/
def writeDigits (style : NumberStyle) (x : Binary64) : List Char :=
  let (digits, exponent) := x.shortestDecimal
  let (digits, point) := significantDigits digits exponent
  if style.needsExponent point then scientific digits point
  else positional digits point style.keepsFraction

/-- Writes a number. -/
def write (style : NumberStyle) (x : Binary64) : List Char :=
  if x.isNaN then ['N', 'a', 'N']
  else
    let body :=
      if !x.isFinite then ['i', 'n', 'f']
      else if x.magnitude == 0 then positional ['0'] 1 style.keepsFraction
      else writeDigits style x
    if x.isNegative then '-' :: body else body

end UriRouting.Binary64
