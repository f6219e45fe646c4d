import Mathlib.Data.List.Nodup
import UriRouting.Template.Basic
/-!
# The pattern of a template as a tree

The text of a template's pattern is read back as one certain pattern: the start of the text, the
host, the separator, the path, and the end of the text. Each character of a literal is an item of its
own, whatever it is; a variable is one named group, and an optional segment one group that may be left
out. So no text of a template changes the structure of its pattern.

Main statement: `finish_patternSource`.
-/

namespace UriRouting

open Pattern

namespace Side

/-- Whether literals on a side match in any case. -/
def anyCase : Side → Bool
  | .host => true
  | .path => false

/-- The flags in force on a side. -/
def flags (side : Side) : Flags :=
  { anyCase := side.anyCase }

/-- The characters of a variable's text, as the pattern of the side writes them. -/
def fillers : Side → CharSet
  | .path => (CharSet.single '/').complement
  | .host => (CharSet.unionAll [.single '\x00', .single '.']).complement

/-- The nesting of brackets that writes these characters. -/
def fillerNesting : Side → Nat
  | .path => 1
  | .host => 2

/-- The characters in front of a text that a class for these characters starts with. -/
def fillerClass : Side → List Char
  | .path => "^/]".toList
  | .host => "^.\\x00]".toList

theorem variablePattern_eq (side : Side) :
    side.variablePattern = '[' :: side.fillerClass ++ ['+'] := by
  cases side <;> rfl

theorem fillers_path : Side.path.fillers = ⟨[(0, 46), (48, 0x10FFFF)]⟩ := by
  decide +kernel

theorem fillers_host : Side.host.fillers = ⟨[(1, 45), (47, 0x10FFFF)]⟩ := by
  decide +kernel

/-- The pattern of a variable takes what its side does not forbid. -/
theorem contains_fillers (side : Side) (c : Char) : side.fillers.contains c = !side.forbids c := by
  have hlast : c.toNat ≤ 0x10FFFF := by
    rcases c.valid with h | h
    · exact Nat.le_trans (Nat.le_of_lt h) (by decide)
    · exact Nat.le_of_lt_succ h.2
  have hchar : ∀ d : Char, c = d ↔ c.toNat = d.toNat := fun d => Char.toNat_inj.symm
  cases side with
  | path =>
    rw [fillers_path, Bool.eq_iff_iff]
    simp [CharSet.contains, CharRanges.contains, forbids, hchar]
    omega
  | host =>
    rw [fillers_host, Bool.eq_iff_iff]
    simp [CharSet.contains, CharRanges.contains, forbids, hchar]
    omega

end Side

namespace Tree

mutual

/-- The items of the pattern of a tree. -/
def items (side : Side) : Tree → List Node
  | .sequence parts => itemsOf side parts
  | .literal text => text.toList.map fun c => .char c side.anyCase
  | .variable name _ _ =>
    [.group (.named name) (.repetition (.oneOf side.fillers side.fillerNesting) 1 none true)]
  | .optional parts =>
    [.repetition (.group .plain (.ofItems (itemsOf side parts))) 0 (some 1) true]

/-- The items of the pattern of some parts. -/
def itemsOf (side : Side) : List Tree → List Node
  | [] => []
  | part :: parts => items side part ++ itemsOf side parts

end

end Tree

namespace Template

/-- The item of the pattern of a host. -/
def hostItem : Option Tree → Node
  | some host => .group .plain (.ofItems (host.items .host))
  | none => .repetition (.oneOf (CharSet.single '\x00').complement 1) 0 none true

/-- The pattern of a path template and a host template. -/
def patternNode (path : Tree) (host : Option Tree) : Node :=
  .sequence (.assertion .textStart :: hostItem host :: .char separator false :: path.items .path
    ++ [.assertion .textEnd])

end Template

/-! ## Names of variables -/

/-- Whether a text is the name of a variable: a letter or an underscore, and then letters, digits and
underscores. -/
def IsName (name : List Char) : Prop :=
  ∃ c cs, name = c :: cs ∧ Template.startsName c = true ∧ cs.all Template.continuesName = true

/-- The letters of names are letters of all alphabets. -/
theorem isAlphabetic_of_isAlpha {c : Char} (h : c.isAlpha = true) : Text.isAlphabetic c = true := by
  rw [Text.isAlphabetic, CharRanges.contains, List.any_eq_true]
  rcases Bool.or_eq_true_iff.1 h with h | h
  · have hbounds : 0x41 ≤ c.toNat ∧ c.toNat ≤ 0x5A := of_decide_eq_true h
    exact ⟨(0x41, 0x5A), by decide, by simpa using hbounds⟩
  · have hlo : 0x61 ≤ c.toNat := of_decide_eq_true (Bool.and_eq_true_iff.1 h).1
    have hhi : c.toNat ≤ 0x7A := of_decide_eq_true (Bool.and_eq_true_iff.1 h).2
    exact ⟨(0x61, 0x7A), by decide, by simpa using ⟨hlo, hhi⟩⟩

theorem isDecimalDigit_of_isDigit {c : Char} (h : c.isDigit = true) :
    Text.isDecimalDigit c = true := by
  rw [Text.isDecimalDigit, CharRanges.contains, List.any_eq_true]
  have hlo : 0x30 ≤ c.toNat := of_decide_eq_true (Bool.and_eq_true_iff.1 h).1
  have hhi : c.toNat ≤ 0x39 := of_decide_eq_true (Bool.and_eq_true_iff.1 h).2
  exact ⟨(0x30, 0x39), by decide, by simpa using ⟨hlo, hhi⟩⟩

/-- The name of a variable can be the name of a group. -/
theorem readGroupName_append {name : List Char} (h : IsName name) (rest : List Char) :
    readGroupName (name ++ '>' :: rest) = some (String.ofList name, rest) := by
  obtain ⟨c, cs, rfl, hstart, hcontinue⟩ := h
  have hstart' : startsGroupName c = true := by
    simp only [Template.startsName, Bool.or_eq_true, beq_iff_eq] at hstart
    rcases hstart with h | rfl
    · simp [startsGroupName, Text.startsName, isAlphabetic_of_isAlpha h]
    · rfl
  have hcontinue' : ∀ d ∈ cs, continuesGroupName d = true := by
    intro d hd
    have hd' := List.all_eq_true.1 hcontinue d hd
    simp only [Template.continuesName, Char.isAlphanum, Bool.or_eq_true, beq_iff_eq] at hd'
    rcases hd' with (h | h) | rfl
    · simp [continuesGroupName, Text.continuesName, Text.startsName, isAlphabetic_of_isAlpha h]
    · simp [continuesGroupName, Text.continuesName, isDecimalDigit_of_isDigit h]
    · rfl
  have hplain : ∀ d ∈ c :: cs, (d != '>') = true := by
    intro d hd
    rw [bne_iff_ne]
    rintro rfl
    rcases List.mem_cons.1 hd with rfl | hd
    · exact absurd hstart (by decide)
    · exact absurd (List.all_eq_true.1 hcontinue _ hd) (by decide)
  have htake : (c :: cs ++ '>' :: rest).takeWhile (· != '>') = c :: cs := by
    rw [List.takeWhile_append_of_pos hplain]
    simp
  have hdrop : (c :: cs ++ '>' :: rest).dropWhile (· != '>') = '>' :: rest := by
    rw [List.dropWhile_append_of_pos hplain]
    simp
  rw [readGroupName, htake, hdrop]
  simp [hstart', List.all_eq_true.2 hcontinue']

namespace Pattern

/-! ## Reading forward -/

theorem Progress.finish_of_step {state next : Progress} {c : Char} {cs rest : List Char}
    (h : state.step c cs = .ok (next, rest)) : state.finish (c :: cs) = next.finish rest := by
  rw [finish]
  split
  · rename_i h'
    rw [h] at h'
    cases h'
    rfl
  · rename_i h'
    rw [h] at h'
    cases h'

/-- A character of a class that is none of the class's operators is added to the class. -/
theorem readClass_item {folded : Bool} {outer : List OpenClass} {cls : OpenClass} {c : Char}
    {cs rest : List Char} {set : CharSet} (hopen : c ≠ '[') (hclose : c ≠ ']')
    (hoperator : classOperator? (c :: cs) = none)
    (hrange : readClassRange folded (c :: cs) = .ok (set, rest)) :
    readClass folded outer cls (c :: cs) = readClass folded outer (cls.add ⟨set, 0⟩) rest := by
  rw [readClass]
  · split
    · rename_i h
      rw [hoperator] at h
      cases h
    · split
      · rename_i h
        rw [hrange] at h
        cases h
      · rename_i h
        rw [hrange] at h
        cases h
        rfl
  · exact hopen
  · exact hclose

theorem readClass_close (folded : Bool) (cls : OpenClass) (rest : List Char) :
    readClass folded [] cls (']' :: rest) = .ok (cls.close, rest) := by
  rw [readClass]

namespace Progress

variable {state next : Progress} {cs rest : List Char}

theorem step_class {set : CharSet} {nesting : Nat}
    (h : readClass state.flags.anyCase [] (openClass cs).1 (openClass cs).2
      = .ok (⟨set, nesting⟩, rest)) :
    state.step '[' cs = .ok (state.add (.oneOf set nesting), rest) := by
  simp [step, h]

theorem step_escape {escape : Escape} (h : readEscape cs = .ok (escape, rest)) :
    state.step '\\' cs = .ok (state.add (state.escapeItem escape), rest) := by
  simp [step, h]

theorem step_open {opening : Opening} (h : readOpening state.flags cs = .ok (opening, rest))
    (hstart : state.start opening = .ok next) : state.step '(' cs = .ok (next, rest) := by
  simp [step, h, hstart, Except.map]

theorem step_close (h : state.close = .ok next) : state.step ')' cs = .ok (next, cs) := by
  simp [step, h, Except.map]

/-- The class of a variable's characters is read as their set. -/
theorem step_fillerClass {side : Side} (hflags : state.flags = side.flags) (rest : List Char) :
    state.step '[' (side.fillerClass ++ rest)
      = .ok (state.add (.oneOf side.fillers side.fillerNesting), rest) := by
  apply step_class
  rw [hflags]
  cases side with
  | path =>
    show readClass false [] ⟨true, none, []⟩ ('/' :: ']' :: rest) = _
    rw [readClass_item (by decide) (by decide) rfl rfl, readClass_close]
    rfl
  | host =>
    have hdot : readClassRange true ('.' :: '\\' :: 'x' :: '0' :: '0' :: ']' :: rest)
        = .ok (.single '.', '\\' :: 'x' :: '0' :: '0' :: ']' :: rest) := by
      have hfold : (CharSet.single '.').anyCase = .single '.' := by decide +kernel
      show Except.ok ((CharSet.single '.').anyCase, _) = _
      rw [hfold]
    have hnul : readClassRange true ('\\' :: 'x' :: '0' :: '0' :: ']' :: rest)
        = .ok (.single '\x00', ']' :: rest) := by
      have hfold : (CharSet.single '\x00').anyCase = .single '\x00' := by decide +kernel
      show Except.ok ((CharSet.single '\x00').anyCase, _) = _
      rw [hfold]
    show readClass true [] ⟨true, none, []⟩ ('.' :: '\\' :: 'x' :: '0' :: '0' :: ']' :: rest) = _
    rw [readClass_item (by decide) (by decide) rfl hdot,
      readClass_item (by decide) (by decide) rfl hnul, readClass_close]
    rfl

/-! ## Literals -/

end Progress

/-- A backslash in front of a character that has a meaning takes the meaning away. -/
theorem readEscape_of_isMeta {c : Char} (h : isMeta c = true) (cs : List Char) :
    readEscape (c :: cs) = .ok (.char c, cs) := by
  simp [isMeta] at h
  rcases h with rfl | rfl | rfl | rfl | rfl | rfl | rfl | rfl | rfl | rfl | rfl | rfl | rfl | rfl
    | rfl | rfl | rfl | rfl <;> rfl

namespace Progress

variable {state next : Progress} {cs rest : List Char}

/-- A character without a meaning of its own is read as itself. -/
theorem step_of_not_isMeta {c : Char} (h : isMeta c = false) (cs : List Char) :
    state.step c cs = .ok (state.add (.char c state.flags.anyCase), cs) := by
  simp [isMeta] at h
  simp [Progress.step, Progress.charItem, h]

/-- How far reading is after more items and names. -/
def extended (state : Progress) (items : List Node) (names : List String) : Progress :=
  { state with items := items.reverse ++ state.items, names := names.reverse ++ state.names }

@[simp] theorem flags_extended (state : Progress) (items : List Node) (names : List String) :
    (state.extended items names).flags = state.flags :=
  rfl

@[simp] theorem names_extended (state : Progress) (items : List Node) (names : List String) :
    (state.extended items names).names = names.reverse ++ state.names :=
  rfl

theorem extended_nil (state : Progress) : state.extended [] [] = state :=
  rfl

theorem extended_extended (state : Progress) (items items' : List Node) (names names' : List String) :
    (state.extended items names).extended items' names'
      = state.extended (items ++ items') (names ++ names') := by
  simp [extended]

/-- A character of a literal is read as itself, behind a backslash or alone. -/
theorem finish_escape {side : Side} (hflags : state.flags = side.flags) (own rest : List Char) :
    state.finish (escape own ++ rest)
      = (state.extended (own.map fun c => .char c side.anyCase) []).finish rest := by
  induction own generalizing state with
  | nil => rfl
  | cons c own ih =>
    have hcase : state.flags.anyCase = side.anyCase := by rw [hflags, Side.flags]
    have hadd : state.finish (escape (c :: own) ++ rest)
        = (state.add (.char c side.anyCase)).finish (escape own ++ rest) := by
      rw [escape, List.flatMap_cons, ← escape, List.append_assoc]
      by_cases hmeta : isMeta c = true
      · rw [if_pos hmeta, ← hcase]
        exact finish_of_step (step_escape (readEscape_of_isMeta hmeta _))
      · rw [if_neg hmeta, ← hcase]
        exact finish_of_step (step_of_not_isMeta (Bool.eq_false_iff.2 hmeta) _)
    rw [hadd]
    apply (ih (show (state.add (.char c side.anyCase)).flags = side.flags from hflags)).trans
    simp [extended, add]

/-! ## Groups -/

theorem step_plus (state : Progress) (cs : List Char) :
    state.step '+' cs = state.repeatMarked 1 none cs := by
  simp [step]

theorem step_star (state : Progress) (cs : List Char) :
    state.step '*' cs = state.repeatMarked 0 none cs := by
  simp [step]

theorem step_question (state : Progress) (cs : List Char) :
    state.step '?' cs = state.repeatMarked 0 (some 1) cs := by
  simp [step]

/-- A repetition that is not marked takes as much as it can, unless the flags say otherwise. -/
theorem repeatMarked_add {least : Nat} {most : Option Nat} {item : Node}
    (hgreed : state.flags.swapGreed = false) (hitem : item ≠ .flags) (hrest : rest.head? ≠ some '?') :
    (state.add item).repeatMarked least most rest
      = .ok (state.add (.repetition item least most true), rest) := by
  have hlast : (state.add item).repeatLast least most true
      = .ok (state.add (.repetition item least most true)) := by
    unfold repeatLast
    cases item with
    | flags => exact absurd rfl hitem
    | _ => simp [add, hgreed]
  unfold repeatMarked
  split
  · simp at hrest
  · rw [hlast]
    rfl

/-- The pattern of a variable is read as one named group. -/
theorem finish_variable {side : Side} {name : String} (hflags : state.flags = side.flags)
    (hname : IsName name.toList) (hfresh : name ∉ state.names) (rest : List Char) :
    state.finish ("(?P<".toList ++ name.toList ++ '>' :: side.variablePattern ++ [')'] ++ rest)
      = (state.extended [.group (.named name)
          (.repetition (.oneOf side.fillers side.fillerNesting) 1 none true)] [name]).finish rest := by
  have htext : "(?P<".toList ++ name.toList ++ '>' :: side.variablePattern ++ [')'] ++ rest
      = '(' :: ("?P<".toList
          ++ (name.toList ++ '>' :: '[' :: (side.fillerClass ++ '+' :: ')' :: rest))) := by
    rw [side.variablePattern_eq, show "(?P<".toList = '(' :: "?P<".toList from rfl]
    simp only [List.append_assoc, List.cons_append, List.nil_append]
  have hopen : state.step '(' ("?P<".toList
        ++ (name.toList ++ '>' :: '[' :: (side.fillerClass ++ '+' :: ')' :: rest)))
      = .ok (state.push (.named name) state.flags, '[' :: (side.fillerClass ++ '+' :: ')' :: rest)) := by
    have hread : readOpening state.flags ("?P<".toList
          ++ (name.toList ++ '>' :: '[' :: (side.fillerClass ++ '+' :: ')' :: rest)))
        = .ok (.capture (some name), '[' :: (side.fillerClass ++ '+' :: ')' :: rest)) := by
      show openNamed (readGroupName
        (name.toList ++ '>' :: '[' :: (side.fillerClass ++ '+' :: ')' :: rest))) = _
      rw [readGroupName_append hname, String.ofList_toList]
      rfl
    exact step_open hread (by simp [start, hfresh])
  have hclass := step_fillerClass
    (show (state.push (.named name) state.flags).flags = side.flags from hflags) ('+' :: ')' :: rest)
  have hgreed : state.flags.swapGreed = false := by
    rw [hflags]
    rfl
  have hrepeat : ((state.push (.named name) state.flags).add
        (.oneOf side.fillers side.fillerNesting)).step '+' (')' :: rest)
      = .ok ((state.push (.named name) state.flags).add
          (.repetition (.oneOf side.fillers side.fillerNesting) 1 none true), ')' :: rest) := by
    rw [step_plus]
    exact repeatMarked_add hgreed (by simp) (by simp)
  rw [htext, finish_of_step hopen, finish_of_step hclass, finish_of_step hrepeat,
    finish_of_step (step_close rfl)]
  rfl

/-- The opening of a group that only holds items together. -/
theorem step_openPlain (state : Progress) (cs : List Char) :
    state.step '(' ('?' :: ':' :: cs) = .ok (state.push .plain state.flags, cs) :=
  step_open (show readOpening state.flags _ = .ok (.plain state.flags, cs) from rfl) rfl

end Progress

end Pattern

namespace Tree

mutual

/-- The pattern of a tree does not start with a question mark. -/
theorem head?_patternChars_append (side : Side) (tree : Tree) {rest : List Char}
    (hrest : rest.head? ≠ some '?') : (tree.patternChars side ++ rest).head? ≠ some '?' := by
  cases tree with
  | sequence parts =>
    rw [patternChars]
    exact head?_patternCharsOf_append side parts hrest
  | literal text =>
    rw [patternChars, escape]
    cases text.toList with
    | nil => exact hrest
    | cons c cs =>
      by_cases hmeta : isMeta c = true
      · simp [hmeta]
      · have hc : c ≠ '?' := by
          rintro rfl
          exact hmeta (by simp [isMeta])
        simp [hmeta, hc]
  | «variable» name calls default => simp [patternChars]
  | optional parts => simp [patternChars]

/-- The pattern of some parts does not start with a question mark. -/
theorem head?_patternCharsOf_append (side : Side) (parts : List Tree) {rest : List Char}
    (hrest : rest.head? ≠ some '?') : (patternCharsOf side parts ++ rest).head? ≠ some '?' := by
  cases parts with
  | nil => exact hrest
  | cons part parts =>
    rw [patternCharsOf, List.append_assoc]
    exact head?_patternChars_append side part (head?_patternCharsOf_append side parts hrest)

end

mutual

/-- The pattern of a tree is read as its items. -/
theorem finish_patternChars {side : Side} (tree : Tree) (state : Progress) (rest : List Char)
    (hflags : state.flags = side.flags) (hnames : ∀ name ∈ tree.variableNames, IsName name.toList)
    (hfresh : (tree.variableNames.reverse ++ state.names).Nodup) (hrest : rest.head? ≠ some '?') :
    state.finish (tree.patternChars side ++ rest)
      = (state.extended (tree.items side) tree.variableNames).finish rest := by
  cases tree with
  | sequence parts =>
    rw [patternChars, items, variableNames]
    exact finish_patternCharsOf parts state rest hflags hnames hfresh hrest
  | literal text =>
    rw [patternChars, items, variableNames]
    exact Progress.finish_escape hflags text.toList rest
  | «variable» name calls default =>
    rw [patternChars, items, variableNames]
    refine Progress.finish_variable hflags (hnames name List.mem_cons_self) ?_ rest
    exact (List.nodup_cons.1 hfresh).1
  | optional parts =>
    have hgreed : state.flags.swapGreed = false := by
      rw [hflags]
      rfl
    have htext : (optional parts).patternChars side ++ rest
        = '(' :: '?' :: ':' :: (patternCharsOf side parts ++ ')' :: '?' :: rest) := by
      rw [patternChars, show "(?:".toList = ['(', '?', ':'] from rfl]
      simp
    -- the group starts with no items, but with the names that were read before it
    have hbody := finish_patternCharsOf parts (state.push .plain state.flags) (')' :: '?' :: rest)
      hflags hnames hfresh (by simp)
    have hclose : ((state.push .plain state.flags).extended (itemsOf side parts)
          (variableNamesOf parts)).close
        = .ok ((state.extended [] (variableNamesOf parts)).add
            (.group .plain (.ofItems (itemsOf side parts)))) := by
      simp [Progress.close, Progress.push, Progress.extended, Progress.body, Progress.add,
        GroupKind.name?]
    have hrepeat : ((state.extended [] (variableNamesOf parts)).add
          (.group .plain (.ofItems (itemsOf side parts)))).step '?' rest
        = .ok ((state.extended [] (variableNamesOf parts)).add
            (.repetition (.group .plain (.ofItems (itemsOf side parts))) 0 (some 1) true), rest) := by
      rw [Progress.step_question]
      exact Progress.repeatMarked_add hgreed (by simp) hrest
    rw [htext, Progress.finish_of_step (Progress.step_openPlain state _), hbody,
      Progress.finish_of_step (Progress.step_close hclose), Progress.finish_of_step hrepeat]
    rfl

/-- The pattern of some parts is read as their items. -/
theorem finish_patternCharsOf {side : Side} (parts : List Tree) (state : Progress)
    (rest : List Char) (hflags : state.flags = side.flags)
    (hnames : ∀ name ∈ variableNamesOf parts, IsName name.toList)
    (hfresh : ((variableNamesOf parts).reverse ++ state.names).Nodup)
    (hrest : rest.head? ≠ some '?') :
    state.finish (patternCharsOf side parts ++ rest)
      = (state.extended (itemsOf side parts) (variableNamesOf parts)).finish rest := by
  cases parts with
  | nil => rfl
  | cons part parts =>
    rw [variableNamesOf] at hnames hfresh
    rw [List.reverse_append, List.append_assoc] at hfresh
    have hpart := finish_patternChars part state (patternCharsOf side parts ++ rest) hflags
      (fun name h => hnames name (List.mem_append_left _ h)) (List.nodup_append.1 hfresh).2.1
      (head?_patternCharsOf_append side parts hrest)
    have hparts := finish_patternCharsOf parts
      (state.extended (part.items side) part.variableNames) rest hflags
      (fun name h => hnames name (List.mem_append_right _ h)) hfresh hrest
    rw [patternCharsOf, List.append_assoc, hpart, hparts, Progress.extended_extended, itemsOf,
      variableNamesOf]

end

end Tree

namespace Template

/-- The names of the variables of a path and a host, those of the host first. -/
def namesOf (path : Tree) (host : Option Tree) : List String :=
  host.elim [] Tree.variableNames ++ path.variableNames

/-- The pattern of a host is read as one item. -/
theorem finish_hostPattern (host : Option Tree) (state : Progress) (rest : List Char)
    (hflags : state.flags = {}) (hnames : ∀ name ∈ host.elim [] Tree.variableNames, IsName name.toList)
    (hfresh : ((host.elim [] Tree.variableNames).reverse ++ state.names).Nodup)
    (hrest : rest.head? ≠ some '?') :
    state.finish (hostPattern host ++ rest)
      = (state.extended [hostItem host] (host.elim [] Tree.variableNames)).finish rest := by
  cases host with
  | none =>
    have hclass : state.step '[' ("^\\x00]*".toList ++ rest)
        = .ok (state.add (.oneOf (CharSet.single '\x00').complement 1), '*' :: rest) := by
      apply Progress.step_class
      rw [hflags]
      show readClass false [] ⟨true, none, []⟩ ('\\' :: 'x' :: '0' :: '0' :: ']' :: '*' :: rest) = _
      rw [readClass_item (by decide) (by decide) rfl rfl, readClass_close]
      rfl
    have hrepeat : (state.add (.oneOf (CharSet.single '\x00').complement 1)).step '*' rest
        = .ok (state.add (.repetition (.oneOf (CharSet.single '\x00').complement 1) 0 none true),
            rest) := by
      rw [Progress.step_star]
      exact Progress.repeatMarked_add (by rw [hflags]) (by simp) hrest
    show state.finish ('[' :: ("^\\x00]*".toList ++ rest)) = _
    rw [Progress.finish_of_step hclass, Progress.finish_of_step hrepeat]
    rfl
  | some host =>
    have hread : readOpening state.flags
          ('?' :: 'i' :: ':' :: (host.patternChars .host ++ ')' :: rest))
        = .ok (.plain Side.host.flags, host.patternChars .host ++ ')' :: rest) := by
      rw [hflags]
      rfl
    have hstart : state.start (.plain Side.host.flags) = .ok (state.push .plain Side.host.flags) :=
      rfl
    have hbody := Tree.finish_patternChars host (state.push .plain Side.host.flags) (')' :: rest)
      rfl hnames hfresh (by simp)
    have hclose : ((state.push .plain Side.host.flags).extended (host.items .host)
          host.variableNames).close
        = .ok (state.extended [hostItem (some host)] host.variableNames) := by
      simp [Progress.close, Progress.push, Progress.extended, Progress.body, hostItem,
        GroupKind.name?]
    have htext : hostPattern (some host) ++ rest
        = '(' :: '?' :: 'i' :: ':' :: (host.patternChars .host ++ ')' :: rest) := by
      show "(?i:".toList ++ host.patternChars .host ++ [')'] ++ rest = _
      rw [show "(?i:".toList = ['(', '?', 'i', ':'] from rfl]
      simp
    rw [htext, Progress.finish_of_step (Progress.step_open hread hstart), hbody,
      Progress.finish_of_step (Progress.step_close hclose)]
    rfl

/-- The text of a template's pattern is read as the pattern of the template. -/
theorem finish_patternSource {path : Tree} {host : Option Tree}
    (hnames : ∀ name ∈ namesOf path host, IsName name.toList) (hfresh : (namesOf path host).Nodup) :
    Progress.finish {} (patternSource path host).toList = .ok (patternNode path host) := by
  have htext : (patternSource path host).toList
      = '^' :: (hostPattern host ++ '\\' :: ('x' :: '0' :: '0' :: (path.patternChars .path ++ ['$']))) := by
    rw [patternSource, String.toList_ofList, show "\\x00".toList = ['\\', 'x', '0', '0'] from rfl]
    simp
  have hstart : ∀ cs, Progress.step {} '^' cs
      = .ok (Progress.extended {} [.assertion .textStart] [], cs) :=
    fun _ => rfl
  have hseparator : ∀ (state : Progress) cs, state.flags = {} →
      state.step '\\' ('x' :: '0' :: '0' :: cs)
        = .ok (state.extended [.char separator false] [], cs) := by
    intro state cs hflags
    rw [Progress.step_escape (show readEscape _ = .ok (.char '\x00', cs) from rfl)]
    simp [Progress.escapeItem, hflags, Progress.add, Progress.extended, separator]
  have hend : ∀ state : Progress, state.flags = {} →
      state.step '$' [] = .ok (state.extended [.assertion .textEnd] [], []) := by
    intro state hflags
    simp [Progress.step, Progress.charItem, hflags, Progress.add, Progress.extended]
  obtain ⟨hhost, hpath⟩ : (∀ name ∈ host.elim [] Tree.variableNames, IsName name.toList)
      ∧ ∀ name ∈ path.variableNames, IsName name.toList :=
    List.forall_mem_append.1 hnames
  have hfresh' : (path.variableNames.reverse
      ++ (host.elim [] Tree.variableNames).reverse).Nodup := by
    rw [← List.reverse_append]
    exact List.nodup_reverse.2 hfresh
  rw [htext, Progress.finish_of_step (hstart _),
    finish_hostPattern host _ _ rfl hhost (by simpa using (List.nodup_append.1 hfresh').2.1) (by simp),
    Progress.finish_of_step (hseparator _ _ rfl),
    Tree.finish_patternChars path _ _ rfl hpath (by simpa using hfresh') (by simp),
    Progress.finish_of_step (hend _ rfl), Progress.finish]
  simp [Progress.extended, Progress.body, patternNode, Node.ofItems]

/-- The text makes a pattern if the pattern of the template is neither too deep nor too big. -/
theorem ofSource_patternSource {path : Tree} {host : Option Tree}
    (hnames : ∀ name ∈ namesOf path host, IsName name.toList) (hfresh : (namesOf path host).Nodup) :
    Pattern.ofSource (patternSource path host)
      = if Pattern.maxNesting < (patternNode path host).nesting then .error .tooDeep
        else if Pattern.maxSize < (patternNode path host).compiledSize then .error .tooBig
        else .ok ⟨patternSource path host, patternNode path host⟩ := by
  rw [ofSource, Node.parse, finish_patternSource hnames hfresh]
  simp only [Node.limited]
  split
  · rfl
  split <;> rfl

theorem ofSource_patternSource_of_le {path : Tree} {host : Option Tree}
    (hnames : ∀ name ∈ namesOf path host, IsName name.toList) (hfresh : (namesOf path host).Nodup)
    (hdepth : (patternNode path host).nesting ≤ Pattern.maxNesting)
    (hsize : (patternNode path host).compiledSize ≤ Pattern.maxSize) :
    Pattern.ofSource (patternSource path host)
      = .ok ⟨patternSource path host, patternNode path host⟩ := by
  rw [ofSource_patternSource hnames hfresh, if_neg (Nat.not_lt_of_le hdepth),
    if_neg (Nat.not_lt_of_le hsize)]

end Template

end UriRouting
