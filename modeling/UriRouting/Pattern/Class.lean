import UriRouting.Pattern.Escape
/-!
# Bracketed classes in a pattern

A class lists characters, ranges, escapes and further classes between brackets. A caret at its start
complements it, and doubled operators combine what stands on their two sides. Reading keeps a stack
of the classes that are still open.
-/

namespace UriRouting.Pattern

/-- A set together with the nesting of brackets that wrote it. -/
structure Nested where
  /-- The set. -/
  set : CharSet
  /-- The nesting of its written form. -/
  nesting : Nat

/-- How two sets of a class are combined. -/
inductive ClassOperator where
  | intersection
  | difference
  | symmetricDifference

/-- A class that is still open. -/
structure OpenClass where
  /-- Whether the class is complemented. -/
  negated : Bool
  /-- What stands before the last operator. -/
  left : Option (ClassOperator × Nested)
  /-- The items after the last operator, the last one first. -/
  items : List Nested

namespace OpenClass

/-- Adds an item. -/
def add (cls : OpenClass) (item : Nested) : OpenClass :=
  { cls with items := item :: cls.items }

/-- What has been read so far, without the complement. -/
def combined (cls : OpenClass) : Nested :=
  let right : Nested :=
    match cls.items with
    | [] => ⟨.nothing, 0⟩
    | [item] => item
    | items => ⟨CharSet.unionAll (items.map (·.set)), (items.map (·.nesting)).foldl max 0 + 1⟩
  match cls.left with
  | none => right
  | some (operator, left) =>
    let set :=
      match operator with
      | .intersection => .inter left.set right.set
      | .difference => left.set.difference right.set
      | .symmetricDifference => left.set.symmetricDifference right.set
    ⟨set, max left.nesting right.nesting + 1⟩

/-- Starts the next operand. -/
def operate (cls : OpenClass) (operator : ClassOperator) : OpenClass :=
  { cls with left := some (operator, cls.combined), items := [] }

/-- The finished class, which counts one level of its own. -/
def close (cls : OpenClass) : Nested :=
  let inner := cls.combined
  ⟨inner.set.negateIf cls.negated, inner.nesting + 1⟩

end OpenClass

/-- Starts a class: dashes at its start, or else a closing bracket there, stand for themselves. -/
def startClass (negated : Bool) (cs : List Char) : OpenClass × List Char :=
  let dashes := cs.takeWhile (· == '-')
  match dashes, cs with
  | [], ']' :: rest => (⟨negated, none, [⟨.single ']', 0⟩]⟩, rest)
  | _, _ => (⟨negated, none, dashes.map fun c => ⟨.single c, 0⟩⟩, cs.dropWhile (· == '-'))

/-- Starts a class after its opening bracket; a caret complements it. -/
def openClass : List Char → OpenClass × List Char
  | '^' :: cs => startClass true cs
  | cs => startClass false cs

/-- Reads one item of a class: a character or an escape. -/
def readClassItem : List Char → Except PatternFault (Escape × List Char)
  | [] => .error .unclosedClass
  | '\\' :: cs => readEscape cs
  | c :: cs => .ok (.char c, cs)

/-- Reads the name of an ASCII class up to its closing colon and bracket. -/
def finishClassName (folded negated : Bool) (cs : List Char) : Option (CharSet × List Char) :=
  match cs.dropWhile (· != ':') with
  | ':' :: ']' :: rest =>
    (CharSet.named? (String.ofList (cs.takeWhile (· != ':')))).map fun set =>
      ((set.foldIf folded).negateIf negated, rest)
  | _ => none

/-- Reads the name of an ASCII class, perhaps with a caret in front that complements it; the opening
bracket and colon have been read. The complement is taken last, also where case does not count. -/
def readClassName (folded : Bool) : List Char → Option (CharSet × List Char)
  | '^' :: cs => finishClassName folded true cs
  | cs => finishClassName folded false cs

/-- The set of an item that stands alone. -/
def itemSet (folded : Bool) : Escape → Except PatternFault CharSet
  | .char c => .ok ((CharSet.single c).foldIf folded)
  | .oneOf set => .ok set
  | .assertion _ => .error .badClassEscape

/-- The set of a range. -/
def rangeSet (folded : Bool) : Escape → Escape → Except PatternFault CharSet
  | .char first, .char last =>
    if first ≤ last then .ok ((CharSet.range first last).foldIf folded) else .error .badClassRange
  | _, _ => .error .badClassRange

/-- Reads a single character, an escape or a range of a class. A dash makes a range unless the
class ends after it or another dash follows. -/
def readClassRange (folded : Bool) (cs : List Char) : Except PatternFault (CharSet × List Char) :=
  match readClassItem cs with
  | .error fault => .error fault
  | .ok (_, ['-']) => .error .unclosedClass
  | .ok (first, '-' :: c :: more) =>
    if c == ']' || c == '-' then (itemSet folded first).map (·, '-' :: c :: more)
    else
      match readClassItem (c :: more) with
      | .error fault => .error fault
      | .ok (last, rest) => (rangeSet folded first last).map (·, rest)
  | .ok (item, rest) => (itemSet folded item).map (·, rest)

/-- The class operator that a text starts with. -/
def classOperator? : List Char → Option (ClassOperator × List Char)
  | '&' :: '&' :: rest => some (.intersection, rest)
  | '-' :: '-' :: rest => some (.difference, rest)
  | '~' :: '~' :: rest => some (.symmetricDifference, rest)
  | _ => none

/-! ## Reading goes forward -/

theorem readClassItem_length {cs rest : List Char} {escape : Escape}
    (h : readClassItem cs = .ok (escape, rest)) : rest.length < cs.length := by
  fun_cases readClassItem cs with
  | case1 => simp [readClassItem] at h
  | case2 cs =>
    have := readEscape_length h
    simp only [List.length_cons]
    omega
  | case3 =>
    simp only [readClassItem, Except.ok.injEq, Prod.mk.injEq] at h
    simp [h.2]

theorem rest_eq_of_map {α : Type} {result : Except PatternFault α} {a : α} {left rest : List Char}
    (h : result.map (·, left) = .ok (a, rest)) : left = rest := by
  cases result with
  | error => simp [Except.map] at h
  | ok => simp_all [Except.map]

theorem readClassRange_length {folded : Bool} {cs rest : List Char} {set : CharSet}
    (h : readClassRange folded cs = .ok (set, rest)) : rest.length < cs.length := by
  unfold readClassRange at h
  split at h
  · simp at h
  · simp at h
  · rename_i c more hi
    have hlt := readClassItem_length hi
    split at h
    · exact rest_eq_of_map h ▸ hlt
    · split at h
      · simp at h
      · rename_i hl
        have hlt' := readClassItem_length hl
        rw [rest_eq_of_map h] at hlt'
        simp only [List.length_cons] at *
        omega
  · rename_i hi
    exact rest_eq_of_map h ▸ readClassItem_length hi

theorem readClassName_length {folded : Bool} {cs rest : List Char} {set : CharSet}
    (h : readClassName folded cs = some (set, rest)) : rest.length ≤ cs.length := by
  have key : ∀ negated cs', cs'.length ≤ cs.length →
      finishClassName folded negated cs' = some (set, rest) → rest.length ≤ cs.length := by
    intro negated cs' hle hf
    unfold finishClassName at hf
    split at hf
    · rename_i more hd
      simp only [Option.map_eq_some_iff, Prod.mk.injEq] at hf
      obtain ⟨_, _, _, rfl⟩ := hf
      have : (cs'.dropWhile (· != ':')).length ≤ cs'.length := (List.dropWhile_sublist _).length_le
      simp only [hd, List.length_cons] at this
      omega
    · simp at hf
  unfold readClassName at h
  split at h
  · exact key true _ (by simp) h
  · exact key false _ (Nat.le_refl _) h

theorem openClass_length (cs : List Char) : (openClass cs).2.length ≤ cs.length := by
  have key : ∀ negated cs', (startClass negated cs').2.length ≤ cs'.length := by
    intro negated cs'
    simp only [startClass]
    split
    · simp
    · exact (List.dropWhile_sublist _).length_le
  unfold openClass
  split
  · rename_i more
    have := key true more
    simp only [List.length_cons]
    omega
  · exact key false cs

theorem classOperator?_length {cs rest : List Char} {operator : ClassOperator}
    (h : classOperator? cs = some (operator, rest)) : rest.length < cs.length := by
  fun_cases classOperator? cs with
  | case1 | case2 | case3 =>
    simp only [classOperator?, Option.some.injEq, Prod.mk.injEq] at h
    simp only [h.2, List.length_cons]
    omega
  | case4 => simp [classOperator?] at h

/-- Reads the rest of a class up to its closing bracket. The classes that are open around it are
given from the innermost outwards. -/
def readClass (folded : Bool) (outer : List OpenClass) (cls : OpenClass) (cs : List Char) :
    Except PatternFault (Nested × List Char) :=
  match cs with
  | [] => .error .unclosedClass
  | '[' :: rest =>
    match _h : (if rest.head? = some ':' then readClassName folded rest.tail else none) with
    | some (set, rest) => readClass folded outer (cls.add ⟨set, 0⟩) rest
    | none => readClass folded (cls :: outer) (openClass rest).1 (openClass rest).2
  | ']' :: rest =>
    match outer with
    | [] => .ok (cls.close, rest)
    | parent :: outer => readClass folded outer (parent.add cls.close) rest
  | c :: cs =>
    match _h : classOperator? (c :: cs) with
    | some (operator, rest) => readClass folded outer (cls.operate operator) rest
    | none =>
      match _h : readClassRange folded (c :: cs) with
      | .error fault => .error fault
      | .ok (set, rest) => readClass folded outer (cls.add ⟨set, 0⟩) rest
termination_by cs.length
decreasing_by
  · split at _h
    · have := readClassName_length _h
      simp only [List.length_tail, List.length_cons] at *
      omega
    · simp at _h
  · have := openClass_length rest
    simp only [List.length_cons]
    omega
  · simp
  · exact classOperator?_length _h
  · exact readClassRange_length _h

theorem readClass_length {folded : Bool} {outer : List OpenClass} {cls : OpenClass}
    {cs rest : List Char} {result : Nested}
    (h : readClass folded outer cls cs = .ok (result, rest)) : rest.length ≤ cs.length := by
  fun_induction readClass folded outer cls cs with
  | case1 => simp at h
  | case2 =>
    rename_i hn ih
    have := ih h
    split at hn
    · have := readClassName_length hn
      simp only [List.length_tail, List.length_cons] at *
      omega
    · simp at hn
  | case3 =>
    rename_i cs _ ih
    have := ih h
    have := openClass_length cs
    simp only [List.length_cons]
    omega
  | case4 =>
    simp only [Except.ok.injEq, Prod.mk.injEq] at h
    simp [h.2]
  | case5 =>
    rename_i ih
    have := ih h
    simp only [List.length_cons]
    omega
  | case6 =>
    rename_i ho ih
    have := ih h
    have := classOperator?_length ho
    omega
  | case7 => simp at h
  | case8 =>
    rename_i hr ih
    have := ih h
    have := readClassRange_length hr
    omega

end UriRouting.Pattern
