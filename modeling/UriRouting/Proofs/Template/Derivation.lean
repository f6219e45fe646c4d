import Mathlib.Data.List.Forall2
import UriRouting.Template.PatternSource
/-!
# What a template tree derives

A tree derives the texts that it stands for. A derivation makes choices: for a variable how many
characters it takes, and for an optional segment whether it is there. Of two derivations the one is
preferred that chooses higher where they first differ, so an optional segment is rather there, and a
variable rather takes more.

* `Tree.Derives` is the relation between a tree, a text, the choices on the way and the texts of the
  variables;
* `Tree.ways` walks a tree along a text and lists all derivations of the starts of the text;
* `Tree.mem_ways_iff` says that it lists these and no others, and `Tree.pairwise_ways` that a preferred
  one comes first.
-/

namespace UriRouting

/-- Whether a character of a request stands for a character of a literal. The case of a host does not
count. -/
def Side.sameChar : Side → Char → Char → Bool
  | .host, c, d => Text.foldCase c == Text.foldCase d
  | .path, c, d => c == d

namespace Tree

/-! ## Derivations -/

mutual

/-- A tree stands for a text, after the given choices and with the given texts of its variables. -/
inductive Derives (side : Side) : Tree → List Char → List Nat → List (String × List Char) → Prop where
  /-- A sequence stands for what its parts stand for. -/
  | sequence {parts : List Tree} {text : List Char} {choices : List Nat}
      {captured : List (String × List Char)} (h : DerivesAll side parts text choices captured) :
      Derives side (.sequence parts) text choices captured
  /-- A literal stands for its own characters. -/
  | literal {own : String} {text : List Char}
      (h : List.Forall₂ (fun c d => side.sameChar c d = true) own.toList text) :
      Derives side (.literal own) text [] []
  /-- A variable stands for one or more characters that do not end its segment. -/
  | variable {name : String} {calls : List RuleCall} {default : Option String} {text : List Char}
      (hne : text ≠ []) (h : ∀ c ∈ text, side.forbids c = false) :
      Derives side (.variable name calls default) text [text.length] [(name, text)]
  /-- An optional segment is there. -/
  | taken {parts : List Tree} {text : List Char} {choices : List Nat}
      {captured : List (String × List Char)} (h : DerivesAll side parts text choices captured) :
      Derives side (.optional parts) text (1 :: choices) captured
  /-- An optional segment is left out. -/
  | skipped {parts : List Tree} : Derives side (.optional parts) [] [0] []

/-- Some parts stand for a text one after another. -/
inductive DerivesAll (side : Side) :
    List Tree → List Char → List Nat → List (String × List Char) → Prop where
  /-- No part stands for nothing. -/
  | nil : DerivesAll side [] [] [] []
  /-- The first part stands for the start of the text, and the others for the rest. -/
  | cons {part : Tree} {parts : List Tree} {text text' : List Char} {choices choices' : List Nat}
      {captured captured' : List (String × List Char)} (h : Derives side part text choices captured)
      (h' : DerivesAll side parts text' choices' captured') :
      DerivesAll side (part :: parts) (text ++ text') (choices ++ choices') (captured ++ captured')

end

/-! ## Preference -/

/-- Choices are preferred to others if they are higher where both first differ. -/
inductive Prefers : List Nat → List Nat → Prop where
  | here {n m : Nat} {choices choices' : List Nat} (h : m < n) : Prefers (n :: choices) (m :: choices')
  | later {n : Nat} {choices choices' : List Nat} (h : Prefers choices choices') :
      Prefers (n :: choices) (n :: choices')

theorem Prefers.append_left {choices choices' : List Nat} (before : List Nat)
    (h : Prefers choices choices') : Prefers (before ++ choices) (before ++ choices') := by
  induction before with
  | nil => exact h
  | cons n before ih => exact .later ih

/-- Later choices do not count any more. -/
theorem Prefers.append {choices choices' : List Nat} (h : Prefers choices choices')
    (after after' : List Nat) : Prefers (choices ++ after) (choices' ++ after') := by
  induction h with
  | here h => exact .here h
  | later h ih => exact .later ih

/-! ## Ways along a text -/

/-- A way along a text: the text that is left, the choices so far, and the texts of the variables so
far. -/
@[ext] structure Way where
  /-- The text that is left. -/
  rest : List Char
  /-- The choices so far. -/
  choices : List Nat
  /-- The texts of the variables so far. -/
  captured : List (String × List Char)

namespace Way

/-- The way that goes on to the given rest over more choices and variables. -/
def extended (way : Way) (rest : List Char) (choices : List Nat)
    (captured : List (String × List Char)) : Way :=
  ⟨rest, way.choices ++ choices, way.captured ++ captured⟩

/-- The way after one more choice. -/
def choosing (way : Way) (choice : Nat) : Way :=
  way.extended way.rest [choice] []

/-- The way on which a variable takes the next characters. -/
def taking (way : Way) (name : String) (count : Nat) : Way :=
  way.extended (way.rest.drop count) [count] [(name, way.rest.take count)]

@[simp] theorem rest_extended (way : Way) (rest : List Char) (choices : List Nat)
    (captured : List (String × List Char)) : (way.extended rest choices captured).rest = rest :=
  rfl

@[simp] theorem choices_extended (way : Way) (rest : List Char) (choices : List Nat)
    (captured : List (String × List Char)) :
    (way.extended rest choices captured).choices = way.choices ++ choices :=
  rfl

@[simp] theorem captured_extended (way : Way) (rest : List Char) (choices : List Nat)
    (captured : List (String × List Char)) :
    (way.extended rest choices captured).captured = way.captured ++ captured :=
  rfl

theorem extended_nil (way : Way) : way.extended way.rest [] [] = way := by
  simp [extended]

theorem extended_extended (way : Way) (rest rest' : List Char) (choices choices' : List Nat)
    (captured captured' : List (String × List Char)) :
    (way.extended rest choices captured).extended rest' choices' captured'
      = way.extended rest' (choices ++ choices') (captured ++ captured') := by
  simp [extended]

theorem choosing_extended (way : Way) (choice : Nat) (rest : List Char) (choices : List Nat)
    (captured : List (String × List Char)) :
    (way.choosing choice).extended rest choices captured
      = way.extended rest (choice :: choices) captured :=
  way.extended_extended ..

end Way

/-- The text behind a literal, if the literal stands at the start of a text. -/
def literalRest? (side : Side) : List Char → List Char → Option (List Char)
  | [], rest => some rest
  | c :: cs, d :: rest => if side.sameChar c d then literalRest? side cs rest else none
  | _ :: _, [] => none

/-- The counts from the greatest down to one. -/
def countsDown (greatest : Nat) : List Nat :=
  (List.range' 1 greatest).reverse

/-- The number of characters in front of a text that a variable can take. -/
def reach (side : Side) (text : List Char) : Nat :=
  (text.takeWhile fun c => !side.forbids c).length

mutual

/-- All ways on which a tree goes along a text, a preferred one first. -/
def ways (side : Side) : Tree → Way → List Way
  | .sequence parts, way => waysOf side parts way
  | .literal own, way =>
    (literalRest? side own.toList way.rest).toList.map fun rest => way.extended rest [] []
  | .variable name _ _, way => (countsDown (reach side way.rest)).map (way.taking name)
  | .optional parts, way => waysOf side parts (way.choosing 1) ++ [way.choosing 0]

/-- All ways on which some parts go along a text one after another. -/
def waysOf (side : Side) : List Tree → Way → List Way
  | [], way => [way]
  | part :: parts, way => (ways side part way).flatMap (waysOf side parts)

end

/-! ## Ways are derivations -/

theorem mem_countsDown {greatest count : Nat} :
    count ∈ countsDown greatest ↔ 0 < count ∧ count ≤ greatest := by
  rw [countsDown, List.mem_reverse, List.mem_range'_1]
  omega

theorem literalRest?_eq_some_iff {side : Side} {own text rest : List Char} :
    literalRest? side own text = some rest ↔
      ∃ start, text = start ++ rest
        ∧ List.Forall₂ (fun c d => side.sameChar c d = true) own start := by
  fun_induction literalRest? side own text with
  | case1 text =>
    constructor
    · intro h
      exact ⟨[], Option.some.inj h, .nil⟩
    · rintro ⟨start, rfl, h⟩
      cases h
      rfl
  | case2 c cs d text hsame ih =>
    rw [ih]
    constructor
    · rintro ⟨start, rfl, h⟩
      exact ⟨d :: start, rfl, .cons hsame h⟩
    · rintro ⟨start, hstart, h⟩
      cases h with
      | cons hsame' h =>
        obtain ⟨rfl, rfl⟩ := List.cons.inj hstart
        exact ⟨_, rfl, h⟩
  | case3 c cs d text hdiffer =>
    constructor
    · intro h
      cases h
    · rintro ⟨start, hstart, h⟩
      cases h with
      | cons hsame h =>
        obtain ⟨rfl, rfl⟩ := List.cons.inj hstart
        exact absurd hsame hdiffer
  | case4 c cs =>
    constructor
    · intro h
      cases h
    · rintro ⟨start, hstart, h⟩
      cases h
      cases hstart

/-- A variable can take the first characters of a text if none of them ends its segment. -/
theorem le_reach_iff {side : Side} {text : List Char} {count : Nat} (hcount : count ≤ text.length) :
    count ≤ reach side text ↔ ∀ c ∈ text.take count, side.forbids c = false := by
  induction text generalizing count with
  | nil => simp_all [reach]
  | cons c text ih =>
    cases count with
    | zero => simp
    | succ count =>
      have := @ih count (Nat.le_of_succ_le_succ hcount)
      by_cases hc : side.forbids c = true
      · simp [reach, hc]
      · simp only [Bool.not_eq_true] at hc
        simpa [reach, List.takeWhile_cons, hc] using this

theorem reach_le_length (side : Side) (text : List Char) : reach side text ≤ text.length :=
  (List.takeWhile_sublist _).length_le

mutual

/-- The ways along a text are the derivations of its starts. -/
theorem mem_ways_iff {side : Side} {tree : Tree} {way way' : Way} :
    way' ∈ ways side tree way ↔ ∃ text choices captured rest,
      Derives side tree text choices captured ∧ way.rest = text ++ rest
        ∧ way' = way.extended rest choices captured := by
  cases tree with
  | sequence parts =>
    rw [ways, mem_waysOf_iff]
    constructor
    · rintro ⟨text, choices, captured, rest, h, hrest, rfl⟩
      exact ⟨text, choices, captured, rest, .sequence h, hrest, rfl⟩
    · rintro ⟨text, choices, captured, rest, h, hrest, rfl⟩
      cases h with
      | sequence h => exact ⟨text, choices, captured, rest, h, hrest, rfl⟩
  | literal own =>
    rw [ways, List.mem_map]
    constructor
    · rintro ⟨rest, hrest, rfl⟩
      obtain ⟨start, hstart, h⟩ := literalRest?_eq_some_iff.1 (Option.mem_toList.1 hrest)
      exact ⟨start, [], [], rest, .literal h, hstart, rfl⟩
    · rintro ⟨text, choices, captured, rest, h, hrest, rfl⟩
      cases h with
      | literal h =>
        exact ⟨rest, Option.mem_toList.2 (literalRest?_eq_some_iff.2 ⟨text, hrest, h⟩), rfl⟩
  | «variable» name calls default =>
    rw [ways, List.mem_map]
    constructor
    · rintro ⟨count, hcount, rfl⟩
      obtain ⟨hpos, hle⟩ := mem_countsDown.1 hcount
      have hlen : count ≤ way.rest.length := Nat.le_trans hle (reach_le_length side way.rest)
      have htake : (way.rest.take count).length = count := List.length_take_of_le hlen
      refine ⟨way.rest.take count, _, _, way.rest.drop count,
        .variable ?_ ((le_reach_iff hlen).1 hle), (List.take_append_drop count way.rest).symm, ?_⟩
      · rw [← List.length_pos_iff, htake]
        exact hpos
      · rw [Way.taking, htake]
    · rintro ⟨text, choices, captured, rest, h, hrest, rfl⟩
      cases h with
      | «variable» hne h =>
        refine ⟨text.length, mem_countsDown.2 ⟨List.length_pos_iff.2 hne, ?_⟩, ?_⟩
        · rw [le_reach_iff (by rw [hrest, List.length_append]; omega), hrest, List.take_left]
          exact h
        · rw [Way.taking, hrest, List.take_left, List.drop_left]
  | optional parts =>
    rw [ways, List.mem_append, List.mem_singleton, mem_waysOf_iff]
    constructor
    · rintro (⟨text, choices, captured, rest, h, hrest, rfl⟩ | rfl)
      · exact ⟨text, 1 :: choices, captured, rest, .taken h, hrest, way.choosing_extended ..⟩
      · exact ⟨[], [0], [], way.rest, .skipped, rfl, rfl⟩
    · rintro ⟨text, choices, captured, rest, h, hrest, rfl⟩
      cases h with
      | taken h =>
        exact Or.inl ⟨text, _, captured, rest, h, hrest, (way.choosing_extended ..).symm⟩
      | skipped =>
        rw [List.nil_append] at hrest
        exact Or.inr (by rw [Way.choosing, hrest])

/-- The ways of some parts along a text are the derivations of its starts. -/
theorem mem_waysOf_iff {side : Side} {parts : List Tree} {way way' : Way} :
    way' ∈ waysOf side parts way ↔ ∃ text choices captured rest,
      DerivesAll side parts text choices captured ∧ way.rest = text ++ rest
        ∧ way' = way.extended rest choices captured := by
  cases parts with
  | nil =>
    rw [waysOf, List.mem_singleton]
    constructor
    · rintro rfl
      exact ⟨[], [], [], way'.rest, .nil, rfl, way'.extended_nil.symm⟩
    · rintro ⟨text, choices, captured, rest, h, hrest, rfl⟩
      cases h
      rw [List.nil_append] at hrest
      rw [← hrest, Way.extended_nil]
  | cons part parts =>
    rw [waysOf, List.mem_flatMap]
    constructor
    · rintro ⟨between, hbetween, hway'⟩
      obtain ⟨text, choices, captured, rest, h, hrest, rfl⟩ := mem_ways_iff.1 hbetween
      obtain ⟨text', choices', captured', rest', h', hrest', rfl⟩ := mem_waysOf_iff.1 hway'
      rw [Way.rest_extended] at hrest'
      refine ⟨text ++ text', choices ++ choices', captured ++ captured', rest', .cons h h', ?_, ?_⟩
      · rw [hrest, hrest', List.append_assoc]
      · rw [Way.extended_extended]
    · rintro ⟨text, choices, captured, rest, h, hrest, rfl⟩
      cases h with
      | @cons _ _ text text' choices choices' captured captured' h h' =>
        rw [List.append_assoc] at hrest
        refine ⟨way.extended (text' ++ rest) choices captured,
          mem_ways_iff.2 ⟨text, choices, captured, _, h, hrest, rfl⟩,
          mem_waysOf_iff.2 ⟨text', choices', captured', rest, h', rfl, ?_⟩⟩
        rw [Way.extended_extended]

end

/-! ## Preferred ways come first -/

/-- The choices on a way come after those in front of it. -/
theorem choices_of_mem_ways {side : Side} {tree : Tree} {way way' : Way}
    (h : way' ∈ ways side tree way) : ∃ choices, way'.choices = way.choices ++ choices := by
  obtain ⟨text, choices, captured, rest, -, -, rfl⟩ := mem_ways_iff.1 h
  exact ⟨choices, rfl⟩

/-- The choices on a way over some parts come after those in front of it. -/
theorem choices_of_mem_waysOf {side : Side} {parts : List Tree} {way way' : Way}
    (h : way' ∈ waysOf side parts way) : ∃ choices, way'.choices = way.choices ++ choices := by
  obtain ⟨text, choices, captured, rest, -, -, rfl⟩ := mem_waysOf_iff.1 h
  exact ⟨choices, rfl⟩

/-- What comes first goes on first. -/
theorem pairwise_flatMap {before : List Way} {f : Way → List Way}
    (h : before.Pairwise fun a b => Prefers a.choices b.choices)
    (hf : ∀ way, (f way).Pairwise fun a b => Prefers a.choices b.choices)
    (hmore : ∀ way, ∀ way' ∈ f way, ∃ choices, way'.choices = way.choices ++ choices) :
    (before.flatMap f).Pairwise fun a b => Prefers a.choices b.choices := by
  rw [List.pairwise_flatMap]
  refine ⟨fun way _ => hf way, h.imp ?_⟩
  intro a b hab a' ha' b' hb'
  obtain ⟨choices, hchoices⟩ := hmore a a' ha'
  obtain ⟨choices', hchoices'⟩ := hmore b b' hb'
  rw [hchoices, hchoices']
  exact hab.append choices choices'

theorem pairwise_countsDown (greatest : Nat) : (countsDown greatest).Pairwise (· > ·) :=
  List.pairwise_reverse.2 List.pairwise_lt_range'

mutual

/-- Of two ways the preferred one is listed first. -/
theorem pairwise_ways (side : Side) (tree : Tree) (way : Way) :
    (ways side tree way).Pairwise fun a b => Prefers a.choices b.choices := by
  cases tree with
  | sequence parts =>
    rw [ways]
    exact pairwise_waysOf side parts way
  | literal own =>
    rw [ways]
    cases literalRest? side own.toList way.rest with
    | none => exact .nil
    | some rest => exact List.pairwise_singleton _ _
  | «variable» name calls default =>
    rw [ways, List.pairwise_map]
    apply (pairwise_countsDown _).imp
    intro n m h
    exact (Prefers.here h).append_left way.choices
  | optional parts =>
    rw [ways, List.pairwise_append]
    refine ⟨pairwise_waysOf side parts _, List.pairwise_singleton _ _, ?_⟩
    intro a ha b hb
    obtain ⟨choices, hchoices⟩ := choices_of_mem_waysOf ha
    rw [List.mem_singleton.1 hb, hchoices]
    simp only [Way.choosing, Way.choices_extended, List.append_assoc]
    exact (Prefers.here Nat.zero_lt_one).append_left way.choices

/-- Of two ways over some parts the preferred one is listed first. -/
theorem pairwise_waysOf (side : Side) (parts : List Tree) (way : Way) :
    (waysOf side parts way).Pairwise fun a b => Prefers a.choices b.choices := by
  cases parts with
  | nil => exact List.pairwise_singleton _ _
  | cons part parts =>
    rw [waysOf]
    exact pairwise_flatMap (pairwise_ways side part way) (pairwise_waysOf side parts)
      fun _ _ => choices_of_mem_waysOf

end

/-! ## Captured names -/

mutual

/-- A derivation has texts for some of the variables, in their order. -/
theorem names_of_derives {side : Side} {tree : Tree} {text : List Char} {choices : List Nat}
    {captured : List (String × List Char)} (h : Derives side tree text choices captured) :
    List.Sublist (captured.map (·.1)) tree.variableNames := by
  cases tree with
  | sequence parts =>
    cases h with
    | sequence h =>
      rw [variableNames]
      exact names_of_derivesAll h
  | literal own =>
    cases h
    exact List.nil_sublist _
  | «variable» name calls default =>
    cases h
    exact List.Sublist.refl _
  | optional parts =>
    cases h with
    | taken h =>
      rw [variableNames]
      exact names_of_derivesAll h
    | skipped => exact List.nil_sublist _

/-- A derivation over some parts has texts for some of the variables, in their order. -/
theorem names_of_derivesAll {side : Side} {parts : List Tree} {text : List Char}
    {choices : List Nat} {captured : List (String × List Char)}
    (h : DerivesAll side parts text choices captured) :
    List.Sublist (captured.map (·.1)) (variableNamesOf parts) := by
  cases parts with
  | nil =>
    cases h
    exact List.nil_sublist _
  | cons part parts =>
    cases h with
    | cons h h' =>
      rw [variableNamesOf, List.map_append]
      exact (names_of_derives h).append (names_of_derivesAll h')

end

/-- A sequence of one variable is derived as the variable is. -/
theorem derives_sequence_variable {side : Side} {name : String} {calls : List RuleCall}
    {default : Option String} {text : List Char} {choices : List Nat}
    {captured : List (String × List Char)} :
    Derives side (.sequence [.variable name calls default]) text choices captured ↔
      text ≠ [] ∧ (∀ c ∈ text, side.forbids c = false) ∧ choices = [text.length]
        ∧ captured = [(name, text)] := by
  constructor
  · intro h
    cases h with
    | sequence h =>
      cases h with
      | cons h h' =>
        cases h'
        cases h with
        | «variable» hne hfree =>
          rw [List.append_nil]
          exact ⟨hne, hfree, rfl, rfl⟩
  · rintro ⟨hne, hfree, rfl, rfl⟩
    have hvariable : Derives side (.variable name calls default) text [text.length]
        [(name, text)] := .variable hne hfree
    have hall := DerivesAll.cons hvariable .nil
    rw [List.append_nil] at hall
    exact .sequence hall

end Tree

end UriRouting
