import UriRouting.Pattern.Fault
import UriRouting.Pattern.Node
/-!
# Escapes in a pattern

A backslash gives the next character another meaning: punctuation stands for itself, some letters
name a class, a condition or a control character, and a code point is written in hexadecimal
digits.
-/

namespace UriRouting.Pattern

/-- What an escape stands for. -/
inductive Escape where
  | char (c : Char)
  | oneOf (set : CharSet)
  | assertion (condition : Assertion)

/-- The character of a hexadecimal code point. -/
def codePoint? (digits : List Char) : Option Char :=
  let value? : Char → Option Nat := fun c =>
    if c.isDigit then some (c.toNat - 48)
    else if 'a' ≤ c && c ≤ 'f' then some (c.toNat - 87)
    else if 'A' ≤ c && c ≤ 'F' then some (c.toNat - 55)
    else none
  if digits.isEmpty then none
  else
    (digits.foldlM (fun n c => (value? c).map (16 * n + ·)) 0).bind fun n =>
      if n.isValidChar then some (Char.ofNat n) else none

/-- Takes the digits of a code point: those in braces, or exactly `width` characters. -/
def takeDigits (width : Nat) : List Char → Option (List Char × List Char)
  | '\x7b' :: cs =>
    match cs.dropWhile (· != '\x7d') with
    | [] => none
    | _ :: rest => some (cs.takeWhile (· != '\x7d'), rest)
  | cs => if width ≤ cs.length then some (cs.take width, cs.drop width) else none

/-- Reads a code point. -/
def readCodePoint (width : Nat) (cs : List Char) : Except PatternFault (Escape × List Char) :=
  match takeDigits width cs with
  | none => .error .badCodePoint
  | some (digits, rest) =>
    match codePoint? digits with
    | some c => .ok (.char c, rest)
    | none => .error .badCodePoint

/-- The characters in the name of a special word boundary. -/
def isBoundaryNameChar (c : Char) : Bool :=
  c.isAlpha || c == '-'

/-- The word boundary of a name. -/
def namedBoundary? : String → Option Assertion
  | "start" => some .wordStart
  | "end" => some .wordEnd
  | "start-half" => some .wordStartHalf
  | "end-half" => some .wordEndHalf
  | _ => none

/-- Reads what follows the escape of a word boundary: the name of a special boundary in braces, or
nothing. -/
def readBoundary : List Char → Except PatternFault (Escape × List Char)
  | ['\x7b'] => .error .badWordBoundary
  | '\x7b' :: c :: cs =>
    if isBoundaryNameChar c then
      match namedBoundary? (String.ofList (c :: cs.takeWhile isBoundaryNameChar)),
          cs.dropWhile isBoundaryNameChar with
      | some boundary, '\x7d' :: rest => .ok (.assertion boundary, rest)
      | _, _ => .error .badWordBoundary
    else .ok (.assertion .wordBoundary, '\x7b' :: c :: cs)
  | cs => .ok (.assertion .wordBoundary, cs)

/-- What a single character after a backslash stands for: punctuation stands for itself, and some
letters have a meaning of their own. -/
def simpleEscape? (c : Char) : Option Escape :=
  match c with
  | 'd' => some (.oneOf .digit)
  | 'D' => some (.oneOf (.complement .digit))
  | 's' => some (.oneOf .blank)
  | 'S' => some (.oneOf (.complement .blank))
  | 'w' => some (.oneOf .word)
  | 'W' => some (.oneOf (.complement .word))
  | 'a' => some (.char '\x07')
  | 'f' => some (.char '\x0c')
  | 't' => some (.char '\t')
  | 'n' => some (.char '\n')
  | 'r' => some (.char '\r')
  | 'v' => some (.char '\x0b')
  | 'A' => some (.assertion .textStart)
  | 'z' => some (.assertion .textEnd)
  | 'B' => some (.assertion .noWordBoundary)
  | '<' => some (.assertion .wordStart)
  | '>' => some (.assertion .wordEnd)
  | _ => if c.toNat < 128 && !c.isAlphanum then some (.char c) else none

/-- Reads an escape; the backslash has been read. -/
def readEscape : List Char → Except PatternFault (Escape × List Char)
  | [] => .error .danglingEscape
  | c :: cs =>
    if c.isDigit then .error .backreference
    else if c == 'x' then readCodePoint 2 cs
    else if c == 'u' then readCodePoint 4 cs
    else if c == 'U' then readCodePoint 8 cs
    else if c == 'b' then readBoundary cs
    else
      match simpleEscape? c with
      | some escape => .ok (escape, cs)
      | none => .error .unknownEscape

/-! ## Escapes are not empty -/

theorem takeDigits_length {width : Nat} {cs digits rest : List Char}
    (h : takeDigits width cs = some (digits, rest)) : rest.length ≤ cs.length := by
  fun_cases takeDigits width cs with
  | case1 cs hc => simp only [takeDigits, hc, reduceCtorEq] at h
  | case2 cs c rest' hc =>
    have hle : (cs.dropWhile (· != '\x7d')).length ≤ cs.length :=
      (List.dropWhile_sublist _).length_le
    rw [hc] at hle
    simp only [takeDigits, hc, Option.some.injEq, Prod.mk.injEq] at h
    simp only [List.length_cons, ← h.2] at hle ⊢
    omega
  | case3 cs _ hw =>
    simp only [takeDigits, hw, if_true, Option.some.injEq, Prod.mk.injEq] at h
    simp [← h.2]
  | case4 cs _ hw => simp [takeDigits, hw] at h

theorem readCodePoint_length {width : Nat} {cs rest : List Char} {escape : Escape}
    (h : readCodePoint width cs = .ok (escape, rest)) : rest.length ≤ cs.length := by
  unfold readCodePoint at h
  split at h
  · simp at h
  · rename_i hd
    split at h
    · simp only [Except.ok.injEq, Prod.mk.injEq] at h
      exact h.2 ▸ takeDigits_length hd
    · simp at h

theorem readBoundary_length {cs rest : List Char} {escape : Escape}
    (h : readBoundary cs = .ok (escape, rest)) : rest.length ≤ cs.length := by
  unfold readBoundary at h
  split at h
  · simp at h
  · rename_i c cs
    have hd : (cs.dropWhile isBoundaryNameChar).length ≤ cs.length :=
      (List.dropWhile_sublist _).length_le
    split at h
    · split at h
      · rename_i hdw
        simp only [Except.ok.injEq, Prod.mk.injEq] at h
        simp only [hdw, List.length_cons, h.2] at hd ⊢
        omega
      · simp at h
    · simp only [Except.ok.injEq, Prod.mk.injEq] at h
      simp [← h.2]
  · simp only [Except.ok.injEq, Prod.mk.injEq] at h
    simp [← h.2]

theorem readEscape_length {cs rest : List Char} {escape : Escape}
    (h : readEscape cs = .ok (escape, rest)) : rest.length < cs.length := by
  match cs with
  | [] => simp [readEscape] at h
  | c :: cs =>
    simp only [readEscape] at h
    rw [List.length_cons, Nat.lt_succ_iff]
    split at h
    · simp at h
    repeat' split at h
    · exact readCodePoint_length h
    · exact readCodePoint_length h
    · exact readCodePoint_length h
    · exact readBoundary_length h
    · simp only [Except.ok.injEq, Prod.mk.injEq] at h
      simp [h.2]
    · simp at h

end UriRouting.Pattern
