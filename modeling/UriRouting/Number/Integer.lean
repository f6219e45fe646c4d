/-!
# Decimal texts of 64-bit integers

An integer is read from an optional sign and one or more ASCII digits; a number beyond 64 bits is
no integer. It is written without a plus sign and without leading zeros.
-/

namespace UriRouting.Number

/-- The value of an ASCII digit. -/
def digitValue (c : Char) : Nat :=
  c.toNat - 48

/-- The number that a run of digits stands for; the empty run stands for zero. -/
def ofDigits (digits : List Char) : Nat :=
  digits.foldl (fun n c => 10 * n + digitValue c) 0

/-- Whether a text is one or more ASCII digits and nothing else. -/
def isDigits (cs : List Char) : Bool :=
  !cs.isEmpty && cs.all Char.isDigit

/-- Takes a sign off the front: whether it was a minus, and the rest. -/
def splitSign : List Char → Bool × List Char
  | '-' :: cs => (true, cs)
  | '+' :: cs => (false, cs)
  | cs => (false, cs)

/-- A natural number with a sign. -/
def signed (negative : Bool) (n : Nat) : Int :=
  if negative then -n else n

/-- The 64-bit integer with the given value, if there is one. -/
def toInt64? (i : Int) : Option Int64 :=
  if -0x8000000000000000 ≤ i ∧ i < 0x8000000000000000 then some (Int64.ofInt i) else none

/-- Reads a 64-bit integer from the whole of a text. -/
def readInteger (cs : List Char) : Option Int64 :=
  let (negative, digits) := splitSign cs
  if isDigits digits then toInt64? (signed negative (ofDigits digits)) else none

/-- Writes an integer, with a sign only when it is negative. -/
def writeSigned (i : Int) : List Char :=
  let digits := Nat.toDigits 10 i.natAbs
  if i < 0 then '-' :: digits else digits

/-- Writes a 64-bit integer. -/
def writeInteger (i : Int64) : List Char :=
  writeSigned i.toInt

end UriRouting.Number
