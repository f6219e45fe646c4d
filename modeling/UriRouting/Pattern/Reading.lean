import UriRouting.Pattern.Class
import UriRouting.Pattern.Count
import UriRouting.Pattern.Size
/-!
# Reading a pattern

The written form of patterns: characters, escapes, bracketed classes, groups, alternatives,
repetitions and flags. There is no look-around and no reference back to a group. Reading keeps a
stack of the groups that are still open and goes over the text once.

Three things that patterns can have are left out, and a text with one of them is refused here: classes
by a Unicode property (`\p` and `\P`), the flags `x` for blanks and `R` for line ends of two characters,
and matching bytes in place of characters (`-u`). No template is written with any of them; they can only
come from the argument of a rule with a pattern.
-/

namespace UriRouting.Pattern

/-! ## Flags -/

/-- What holds for the rest of a group. -/
structure Flags where
  /-- Characters match in any case. -/
  anyCase : Bool := false
  /-- The anchors also match at line ends. -/
  multiLine : Bool := false
  /-- The dot also matches a line feed. -/
  dotAll : Bool := false
  /-- Repetitions are lazy unless marked. -/
  swapGreed : Bool := false
deriving DecidableEq

/-- Sets the flag of a letter, if there is one. -/
def Flags.set? (flags : Flags) (letter : Char) (on : Bool) : Option Flags :=
  match letter with
  | 'i' => some { flags with anyCase := on }
  | 'm' => some { flags with multiLine := on }
  | 's' => some { flags with dotAll := on }
  | 'U' => some { flags with swapGreed := on }
  | 'u' => if on then some flags else none
  | _ => none

/-- Reads flag letters up to a colon or a closing parenthesis; a dash turns the letters after it
off. No letter and no dash comes twice, and a dash is not the last. The answer tells whether a
group starts, and the flags in force from there on. -/
def readFlags (flags : Flags) (seen : List Char) :
    List Char → Except PatternFault (Bool × Flags × List Char)
  | [] => .error .badFlags
  | c :: cs =>
    if c == ':' || c == ')' then
      if seen.head? == some '-' || (c == ')' && seen.isEmpty) then .error .badFlags
      else .ok (c == ':', flags, cs)
    else if seen.contains c then .error .badFlags
    else if c == '-' then readFlags flags (c :: seen) cs
    else
      match flags.set? c (!seen.contains '-') with
      | some flags => readFlags flags (c :: seen) cs
      | none => .error .badFlags

/-! ## Groups -/

/-- The characters that the name of a group can start with. -/
def startsGroupName (c : Char) : Bool :=
  c == '_' || Text.startsName c

/-- The characters that the name of a group can go on with. -/
def continuesGroupName (c : Char) : Bool :=
  c == '_' || c == '.' || c == '[' || c == ']' || Text.continuesName c

/-- Reads the name of a group up to its closing angle bracket. -/
def readGroupName (cs : List Char) : Option (String × List Char) :=
  match cs.takeWhile (· != '>'), cs.dropWhile (· != '>') with
  | c :: name, _ :: rest =>
    if startsGroupName c && name.all continuesGroupName then some (String.ofList (c :: name), rest)
    else none
  | _, _ => none

/-- What an opening parenthesis starts. -/
inductive Opening where
  /-- A capturing group, perhaps with a name. -/
  | capture (name : Option String)
  /-- A group that captures nothing, with the flags in force inside it. -/
  | plain (flags : Flags)
  /-- A change of the flags for the rest of the enclosing group. -/
  | change (flags : Flags)

/-- The opening of a group by the name that was read. -/
def openNamed : Option (String × List Char) → Except PatternFault (Opening × List Char)
  | some (name, rest) => .ok (.capture (some name), rest)
  | none => .error .badGroupName

/-- Reads the opening of a group; the opening parenthesis has been read. -/
def readOpening (flags : Flags) (cs : List Char) : Except PatternFault (Opening × List Char) :=
  match cs with
  | '?' :: '=' :: _ => .error .lookAround
  | '?' :: '!' :: _ => .error .lookAround
  | '?' :: '<' :: '=' :: _ => .error .lookAround
  | '?' :: '<' :: '!' :: _ => .error .lookAround
  | '?' :: 'P' :: '<' :: rest => openNamed (readGroupName rest)
  | '?' :: '<' :: rest => openNamed (readGroupName rest)
  | '?' :: rest =>
    match readFlags flags [] rest with
    | .error fault => .error fault
    | .ok (true, flags, rest) => .ok (.plain flags, rest)
    | .ok (false, flags, rest) => .ok (.change flags, rest)
  | cs => .ok (.capture none, cs)

/-! ## Patterns -/

/-- A group that is still open: its kind, and what stands in front of it. -/
structure OpenGroup where
  /-- What the group is for. -/
  kind : GroupKind
  /-- The flags in force outside the group. -/
  flags : Flags
  /-- The finished branches outside the group, the last one first. -/
  choices : List Node
  /-- The items in front of the group, the last one first. -/
  items : List Node

/-- How far a pattern has been read. -/
structure Progress where
  /-- The open groups, from the innermost outwards. -/
  outer : List OpenGroup := []
  /-- The finished branches of the innermost group, the last one first. -/
  choices : List Node := []
  /-- The items of its current branch, the last one first. -/
  items : List Node := []
  /-- The flags in force. -/
  flags : Flags := {}
  /-- The names of groups so far. -/
  names : List String := []

namespace Progress

/-- Adds an item to the current branch. -/
def add (state : Progress) (item : Node) : Progress :=
  { state with items := item :: state.items }

/-- What the innermost group holds. -/
def body (state : Progress) : Node :=
  let last := Node.ofItems state.items.reverse
  match state.choices with
  | [] => last
  | choices => .branches (choices.reverse ++ [last])

/-- Starts the next branch. -/
def nextBranch (state : Progress) : Progress :=
  { state with choices := Node.ofItems state.items.reverse :: state.choices, items := [] }

/-- Opens a group. -/
def push (state : Progress) (kind : GroupKind) (flags : Flags) : Progress :=
  { outer := ⟨kind, state.flags, state.choices, state.items⟩ :: state.outer
    flags := flags
    names := kind.name?.toList ++ state.names }

/-- Opens a group or changes the flags; no name comes twice. -/
def start (state : Progress) : Opening → Except PatternFault Progress
  | .change flags => .ok { state.add .flags with flags := flags }
  | .plain flags => .ok (state.push .plain flags)
  | .capture none => .ok (state.push .unnamed state.flags)
  | .capture (some name) =>
    if state.names.contains name then .error .duplicateGroupName
    else .ok (state.push (.named name) state.flags)

/-- Closes the innermost group. -/
def close (state : Progress) : Except PatternFault Progress :=
  match state.outer with
  | [] => .error .unopenedGroup
  | group :: outer =>
    .ok { state with
      outer := outer
      choices := group.choices
      items := .group group.kind state.body :: group.items
      flags := group.flags }

/-- Repeats the last item; `greedy` tells how the repetition is marked. -/
def repeatLast (state : Progress) (least : Nat) (most : Option Nat) (greedy : Bool) :
    Except PatternFault Progress :=
  match state.items with
  | [] => .error .nothingToRepeat
  | .flags :: _ => .error .nothingToRepeat
  | item :: items =>
    .ok { state with
      items := .repetition item least most (greedy != state.flags.swapGreed) :: items }

/-- Repeats the last item; a question mark after the operator makes the repetition lazy. -/
def repeatMarked (state : Progress) (least : Nat) (most : Option Nat) :
    List Char → Except PatternFault (Progress × List Char)
  | '?' :: rest => (state.repeatLast least most false).map (·, rest)
  | rest => (state.repeatLast least most true).map (·, rest)

/-- The item that an escape stands for. -/
def escapeItem (state : Progress) : Escape → Node
  | .char c => .char c state.flags.anyCase
  | .oneOf set => .oneOf set 0
  | .assertion condition => .assertion condition

/-- The item of a character that stands outside classes and is no operator. -/
def charItem (state : Progress) (c : Char) : Node :=
  if c == '.' then
    .oneOf (.complement (if state.flags.dotAll then .nothing else .single '\n')) 0
  else if c == '^' then .assertion (if state.flags.multiLine then .lineStart else .textStart)
  else if c == '$' then .assertion (if state.flags.multiLine then .lineEnd else .textEnd)
  else .char c state.flags.anyCase

/-- Reads the next piece of a pattern, which starts with the given character. -/
def step (state : Progress) (c : Char) (cs : List Char) :
    Except PatternFault (Progress × List Char) :=
  if c == '(' then
    match readOpening state.flags cs with
    | .error fault => .error fault
    | .ok (opening, rest) => (state.start opening).map (·, rest)
  else if c == ')' then state.close.map (·, cs)
  else if c == '|' then .ok (state.nextBranch, cs)
  else if c == '[' then
    match readClass state.flags.anyCase [] (openClass cs).1 (openClass cs).2 with
    | .error fault => .error fault
    | .ok (⟨set, nesting⟩, rest) => .ok (state.add (.oneOf set nesting), rest)
  else if c == '?' then state.repeatMarked 0 (some 1) cs
  else if c == '*' then state.repeatMarked 0 none cs
  else if c == '+' then state.repeatMarked 1 none cs
  else if c == '\x7b' then
    match readCount cs with
    | none => .error .badCount
    | some (least, most, rest) => state.repeatMarked least most rest
  else if c == '\\' then
    match readEscape cs with
    | .error fault => .error fault
    | .ok (escape, rest) => .ok (state.add (state.escapeItem escape), rest)
  else .ok (state.add (state.charItem c), cs)

end Progress

/-! ### Reading goes forward -/

theorem readGroupName_length {cs rest : List Char} {name : String}
    (h : readGroupName cs = some (name, rest)) : rest.length ≤ cs.length := by
  have hd : (cs.dropWhile (· != '>')).length ≤ cs.length := (List.dropWhile_sublist _).length_le
  unfold readGroupName at h
  split at h
  · rename_i hr
    rw [hr, List.length_cons] at hd
    split at h
    · simp only [Option.some.injEq, Prod.mk.injEq] at h
      rw [h.2] at hd
      omega
    · simp at h
  · simp at h

theorem readFlags_length {flags flags' : Flags} {seen cs rest : List Char} {isGroup : Bool}
    (h : readFlags flags seen cs = .ok (isGroup, flags', rest)) : rest.length ≤ cs.length := by
  fun_induction readFlags flags seen cs with
  | case1 => simp at h
  | case2 => simp at h
  | case3 =>
    simp only [Except.ok.injEq, Prod.mk.injEq] at h
    simp [h.2.2]
  | case4 => simp at h
  | case5 =>
    rename_i ih
    have := ih h
    simp only [List.length_cons]
    omega
  | case6 =>
    rename_i ih
    have := ih h
    simp only [List.length_cons]
    omega
  | case7 => simp at h

theorem openNamed_length {cs rest : List Char} {opening : Opening}
    (h : openNamed (readGroupName cs) = .ok (opening, rest)) : rest.length ≤ cs.length := by
  unfold openNamed at h
  split at h
  · rename_i hn
    simp only [Except.ok.injEq, Prod.mk.injEq] at h
    exact h.2 ▸ readGroupName_length hn
  · simp at h

theorem readOpening_length {flags : Flags} {cs rest : List Char} {opening : Opening}
    (h : readOpening flags cs = .ok (opening, rest)) : rest.length ≤ cs.length := by
  unfold readOpening at h
  split at h
  · simp at h
  · simp at h
  · simp at h
  · simp at h
  · have := openNamed_length h
    simp only [List.length_cons]
    omega
  · have := openNamed_length h
    simp only [List.length_cons]
    omega
  · split at h
    · simp at h
    all_goals
      rename_i hf
      have := readFlags_length hf
      simp only [Except.ok.injEq, Prod.mk.injEq] at h
      simp only [List.length_cons, ← h.2]
      omega
  · simp only [Except.ok.injEq, Prod.mk.injEq] at h
    simp [h.2]

namespace Progress

theorem repeatMarked_length {state state' : Progress} {least : Nat} {most : Option Nat}
    {cs rest : List Char} (h : state.repeatMarked least most cs = .ok (state', rest)) :
    rest.length ≤ cs.length := by
  unfold repeatMarked at h
  split at h
  all_goals simp [← rest_eq_of_map h]

/-- A step leaves no more text than it was given. -/
theorem step_length {state state' : Progress} {c : Char} {cs rest : List Char}
    (h : state.step c cs = .ok (state', rest)) : rest.length ≤ cs.length := by
  unfold step at h
  split at h
  · split at h
    · simp at h
    · rename_i ho
      exact rest_eq_of_map h ▸ readOpening_length ho
  split at h
  · simp [← rest_eq_of_map h]
  split at h
  · simp only [Except.ok.injEq, Prod.mk.injEq] at h
    simp [h.2]
  split at h
  · split at h
    · simp at h
    · rename_i hc
      simp only [Except.ok.injEq, Prod.mk.injEq] at h
      exact h.2 ▸ Nat.le_trans (readClass_length hc) (openClass_length cs)
  split at h
  · exact repeatMarked_length h
  split at h
  · exact repeatMarked_length h
  split at h
  · exact repeatMarked_length h
  split at h
  · split at h
    · simp at h
    · rename_i hn
      exact Nat.le_trans (repeatMarked_length h) (readCount_length hn)
  split at h
  · split at h
    · simp at h
    · rename_i he
      simp only [Except.ok.injEq, Prod.mk.injEq] at h
      exact h.2 ▸ Nat.le_of_lt (readEscape_length he)
  · simp only [Except.ok.injEq, Prod.mk.injEq] at h
    simp [h.2]

/-- Reads the rest of a pattern. -/
def finish (state : Progress) (cs : List Char) : Except PatternFault Node :=
  match cs with
  | [] => if state.outer.isEmpty then .ok state.body else .error .unclosedGroup
  | c :: cs =>
    match _h : state.step c cs with
    | .ok (state, rest) => finish state rest
    | .error fault => .error fault
termination_by cs.length
decreasing_by
  have := step_length _h
  simp only [List.length_cons]
  omega

end Progress

/-- The greatest depth of a pattern. -/
def maxNesting : Nat := 250

/-- A pattern within both limits. The depth counts first: it is known before the pattern is compiled. -/
def Node.limited (node : Node) : Except PatternFault Node :=
  if maxNesting < node.nesting then .error .tooDeep
  else if maxSize < node.compiledSize then .error .tooBig
  else .ok node

/-- Reads a pattern. -/
def Node.parse (text : String) : Except PatternFault Node :=
  match Progress.finish {} text.toList with
  | .ok node => node.limited
  | .error fault => .error fault

end UriRouting.Pattern
