import UriRouting.Number.Integer
import UriRouting.Text.Blank
/-!
# Bounds of a counted repetition
-/

namespace UriRouting.Pattern

/-- Reads a number of at most 32 bits, with blanks around it. -/
def readNumber (cs : List Char) : Option (Nat × List Char) :=
  let cs := cs.dropWhile Text.isBlank
  let digits := cs.takeWhile Char.isDigit
  let n := Number.ofDigits digits
  if digits.isEmpty || UInt32.size ≤ n then none
  else some (n, (cs.dropWhile Char.isDigit).dropWhile Text.isBlank)

/-- Reads the bounds of a counted repetition up to the closing brace; the opening one has been read.
The lower bound does not exceed the upper one. -/
def readCount (cs : List Char) : Option (Nat × Option Nat × List Char) :=
  match readNumber cs with
  | none => none
  | some (least, '\x7d' :: rest) => some (least, some least, rest)
  | some (least, ',' :: '\x7d' :: rest) => some (least, none, rest)
  | some (least, ',' :: more) =>
    match readNumber more with
    | some (most, '\x7d' :: rest) => if least ≤ most then some (least, some most, rest) else none
    | _ => none
  | some _ => none

theorem readNumber_length {cs rest : List Char} {n : Nat} (h : readNumber cs = some (n, rest)) :
    rest.length ≤ cs.length := by
  simp only [readNumber] at h
  split at h
  · simp at h
  · simp only [Option.some.injEq, Prod.mk.injEq] at h
    exact h.2 ▸ (((List.dropWhile_sublist _).trans (List.dropWhile_sublist _)).trans
      (List.dropWhile_sublist _)).length_le

theorem readCount_length {cs rest : List Char} {least : Nat} {most : Option Nat}
    (h : readCount cs = some (least, most, rest)) : rest.length ≤ cs.length := by
  unfold readCount at h
  split at h
  · simp at h
  · rename_i hn
    have hle := readNumber_length hn
    simp only [Option.some.injEq, Prod.mk.injEq] at h
    simp only [List.length_cons, h.2.2] at hle
    omega
  · rename_i hn
    have hle := readNumber_length hn
    simp only [Option.some.injEq, Prod.mk.injEq] at h
    simp only [List.length_cons, h.2.2] at hle
    omega
  · rename_i more _ hn
    have hle := readNumber_length hn
    split at h
    · rename_i hm
      have hle' := readNumber_length hm
      split at h
      · simp only [Option.some.injEq, Prod.mk.injEq] at h
        simp only [List.length_cons, h.2.2] at hle hle'
        omega
      · simp at h
    · simp at h
  · simp at h

end UriRouting.Pattern
