import UriRouting.Proofs.Template.OneVariable
/-!
# Templates with equal tests

Templates of one rule book are tested alike if their patterns have one text and their variables the same
names, calls, defaults and types. The rules are left out of the comparison, since they follow from their
calls. But arguments are compared as values, so the two zeros among numbers are one argument, and a rule
that can tell them apart does not follow from its call. The built-in bounds and members do not tell them
apart. A pattern does, because it is its argument written as a text, and a rule of the application may.

* `Binary64.SamePlace` relates numbers that no comparison tells apart, and `Rule.TestsAlike` rules that pass
  the same texts;
* `testsAlike_of_resolve` says that equal calls make such rules, if the signs of zeros agree where they are
  seen;
* `extract_eq_of_testsAlike` is the main statement, and `extract_signed_zeros` shows why it needs its
  proviso.
-/

namespace UriRouting

open UriRouting.Number UriRouting.Tree UriRouting.Template

theorem exists_of_bind_eq_ok {ε α β : Type} {x : Except ε α} {f : α → Except ε β} {b : β}
    (h : x >>= f = .ok b) : ∃ a, x = .ok a ∧ f a = .ok b := by
  cases x with
  | error e => cases h
  | ok a => exact ⟨a, rfl, h⟩

/-! ## Numbers that compare alike -/

namespace Binary64

/-- Numbers that no comparison tells apart. -/
structure SamePlace (x y : Binary64) : Prop where
  /-- They have one place among all numbers. -/
  place : x.place = y.place
  /-- Both are numbers or none is. -/
  isNaN : x.isNaN = y.isNaN

variable {x y : Binary64}

theorem samePlace_of_equals (h : x.equals y = true) : x.SamePlace y := by
  simp only [equals, Bool.and_eq_true, Bool.not_eq_true', beq_iff_eq] at h
  exact ⟨h.2, h.1.1.trans h.1.2.symm⟩

theorem SamePlace.equals_eq (h : x.SamePlace y) (z : Binary64) : z.equals x = z.equals y := by
  rw [equals, equals, h.place, h.isNaN]

theorem SamePlace.ordered_left (h : x.SamePlace y) (inclusive : Bool) (z : Binary64) :
    Rule.ordered inclusive x z = Rule.ordered inclusive y z := by
  simp only [Rule.ordered, atMost, below, h.place, h.isNaN]

theorem SamePlace.ordered_right (h : x.SamePlace y) (inclusive : Bool) (z : Binary64) :
    Rule.ordered inclusive z x = Rule.ordered inclusive z y := by
  simp only [Rule.ordered, atMost, below, h.place, h.isNaN]

/-- A number is known by its place and its sign. -/
theorem eq_of_place (hplace : x.place = y.place) (hsign : x.isNegative = y.isNegative) : x = y := by
  have hmagnitude : x.magnitude = y.magnitude := by
    simp only [place, hsign] at hplace
    split at hplace <;> omega
  rw [← ofMagnitude_magnitude x, ← ofMagnitude_magnitude y, hsign, hmagnitude]

end Binary64

/-! ## Arguments that compare alike -/

namespace Value

/-- If both values are numbers with a fraction, these have one sign. -/
def SameSign : Value → Value → Prop
  | .float x, .float y => x.isNegative = y.isNegative
  | _, _ => True

variable {v w : Value}

/-- Equal values are the same, or numbers that no comparison tells apart. -/
theorem eq_or_samePlace_of_agrees (h : v.agrees w = true) :
    v = w ∨ ∃ x y, v = .float x ∧ w = .float y ∧ x.SamePlace y := by
  cases v with
  | float x =>
    cases w with
    | float y => exact Or.inr ⟨x, y, rfl, rfl, Binary64.samePlace_of_equals h⟩
    | _ => cases h
  | _ =>
    cases w <;> simp only [agrees, beq_iff_eq, Bool.false_eq_true] at h
    rw [h]
    exact Or.inl rfl

/-- Equal values differ in nothing but the sign of a zero. -/
theorem eq_of_agrees (h : v.agrees w = true) (hsign : v.SameSign w) : v = w := by
  obtain rfl | ⟨x, y, rfl, rfl, hplace⟩ := eq_or_samePlace_of_agrees h
  · rfl
  · rw [Binary64.eq_of_place hplace.place hsign]

theorem matchesText_of_agrees (h : v.agrees w = true) (text : String) :
    v.matchesText text = w.matchesText text := by
  obtain rfl | ⟨x, y, rfl, rfl, hplace⟩ := eq_or_samePlace_of_agrees h
  · rfl
  · simp only [matchesText, hplace.equals_eq]

theorem toBool?_of_agrees (h : v.agrees w = true) : v.toBool? = w.toBool? := by
  obtain rfl | ⟨x, y, rfl, rfl, -⟩ := eq_or_samePlace_of_agrees h <;> rfl

theorem samePlace_of_agrees (h : v.agrees w = true) {x y : Binary64} (hx : v.toNumber? = some x)
    (hy : w.toNumber? = some y) : x.SamePlace y := by
  obtain rfl | ⟨x', y', rfl, rfl, hplace⟩ := eq_or_samePlace_of_agrees h
  · rw [hx] at hy
    cases hy
    exact ⟨rfl, rfl⟩
  · cases hx
    cases hy
    exact hplace

end Value

/-! ## Rules that pass the same texts -/

namespace Rule

/-- Rules of one name that pass the same texts. -/
structure TestsAlike (rule rule' : Rule) : Prop where
  /-- They have one name. -/
  slug : rule.slug = rule'.slug
  /-- They pass the same texts. -/
  passes : ∀ text, rule.passes text = rule'.passes text

theorem TestsAlike.refl (rule : Rule) : rule.TestsAlike rule :=
  ⟨rfl, fun _ => rfl⟩

/-- Lists of arguments that compare equal. -/
abbrev AgreeAll : List Value → List Value → Prop :=
  List.Forall₂ fun v w => v.agrees w = true

/-- Equal arguments with the same signs are the same. -/
theorem eq_of_agreeAll {arguments arguments' : List Value} (h : AgreeAll arguments arguments')
    (hsigns : List.Forall₂ Value.SameSign arguments arguments') : arguments = arguments' := by
  induction h with
  | nil => rfl
  | cons hfirst _ ih =>
    obtain ⟨hsign, hsigns⟩ := List.forall₂_cons.1 hsigns
    rw [Value.eq_of_agrees hfirst hsign, ih hsigns]

/-- A way to make rules that does not tell equal arguments apart. -/
def MakesAlike (make : List Value → Except ArgumentFault Rule) : Prop :=
  ∀ ⦃arguments arguments' : List Value⦄ ⦃rule rule' : Rule⦄, AgreeAll arguments arguments' →
    make arguments = .ok rule → make arguments' = .ok rule' → rule.TestsAlike rule'

variable {arguments arguments' : List Value} {rule : Rule}

theorem makesAlike_plain (rule : Rule) : MakesAlike (plain rule) := by
  intro arguments arguments' made made' h hmade hmade'
  cases h with
  | nil =>
    cases hmade
    cases hmade'
    exact .refl _
  | cons => cases hmade

theorem numberArgument_eq_ok {value : Value} {x : Binary64} (h : numberArgument value = .ok x) :
    value.toNumber? = some x := by
  unfold numberArgument at h
  split at h
  · rename_i hnumber
    cases h
    exact hnumber
  · cases h

theorem toBool?_of_inclusiveArgument {value : Value} {inclusive : Bool}
    (h : inclusiveArgument (some value) = .ok inclusive) : value.toBool? = some inclusive := by
  unfold inclusiveArgument at h
  split at h
  · cases ‹some value = none›
  · rename_i hvalue
    cases hvalue
    split at h
    · rename_i hbool
      cases h
      exact hbool
    · cases h

theorem inclusive_eq_of_agreeAll (h : AgreeAll arguments arguments') {inclusive inclusive' : Bool}
    (hflag : inclusiveArgument arguments.head? = .ok inclusive)
    (hflag' : inclusiveArgument arguments'.head? = .ok inclusive') : inclusive = inclusive' := by
  cases h with
  | nil =>
    cases hflag
    cases hflag'
    rfl
  | cons hfirst _ =>
    have hbool := toBool?_of_inclusiveArgument hflag
    rw [Value.toBool?_of_agrees hfirst, toBool?_of_inclusiveArgument hflag'] at hbool
    exact (Option.some.inj hbool).symm

theorem bounded_eq_ok {make : Binary64 → Bool → Rule} (h : bounded make arguments = .ok rule) :
    ∃ bound flag x inclusive, arguments = bound :: flag ∧ bound.toNumber? = some x
      ∧ inclusiveArgument flag.head? = .ok inclusive ∧ rule = make x inclusive := by
  unfold bounded at h
  split at h
  · rename_i bound flag
    split at h
    · obtain ⟨x, hx, hrest⟩ := exists_of_bind_eq_ok h
      obtain ⟨inclusive, hinclusive, hmade⟩ := exists_of_bind_eq_ok hrest
      cases hmade
      exact ⟨bound, flag, x, inclusive, rfl, numberArgument_eq_ok hx, hinclusive, rfl⟩
    · cases h
  · cases h

theorem ranged_eq_ok (h : ranged arguments = .ok rule) :
    ∃ lower upper flag x y inclusive, arguments = lower :: upper :: flag ∧ lower.toNumber? = some x
      ∧ upper.toNumber? = some y ∧ inclusiveArgument flag.head? = .ok inclusive
      ∧ rule = .between x y inclusive := by
  unfold ranged at h
  split at h
  · rename_i lower upper flag
    split at h
    · obtain ⟨x, hx, hrest⟩ := exists_of_bind_eq_ok h
      obtain ⟨y, hy, hrest⟩ := exists_of_bind_eq_ok hrest
      split at hrest
      · cases hrest
      obtain ⟨inclusive, hinclusive, hmade⟩ := exists_of_bind_eq_ok hrest
      cases hmade
      exact ⟨lower, upper, flag, x, y, inclusive, rfl, numberArgument_eq_ok hx, numberArgument_eq_ok hy,
        hinclusive, rfl⟩
    · cases h
  · cases h

/-- Bounds at one place take the same numbers. -/
theorem makesAlike_bounded {make : Binary64 → Bool → Rule}
    (h : ∀ x y inclusive, x.SamePlace y → (make x inclusive).TestsAlike (make y inclusive)) :
    MakesAlike (bounded make) := by
  intro arguments arguments' made made' hagree hmade hmade'
  obtain ⟨bound, flag, x, inclusive, rfl, hx, hinclusive, rfl⟩ := bounded_eq_ok hmade
  obtain ⟨bound', flag', y, inclusive', rfl, hy, hinclusive', rfl⟩ := bounded_eq_ok hmade'
  obtain ⟨hbound, hflag⟩ := List.forall₂_cons.1 hagree
  obtain rfl := inclusive_eq_of_agreeAll hflag hinclusive hinclusive'
  exact h x y inclusive (Value.samePlace_of_agrees hbound hx hy)

theorem testsAlike_min {x y : Binary64} (inclusive : Bool) (h : x.SamePlace y) :
    (Rule.min x inclusive).TestsAlike (.min y inclusive) := by
  refine ⟨rfl, fun text => ?_⟩
  simp only [passes, funext (h.ordered_left inclusive)]

theorem testsAlike_max {x y : Binary64} (inclusive : Bool) (h : x.SamePlace y) :
    (Rule.max x inclusive).TestsAlike (.max y inclusive) := by
  refine ⟨rfl, fun text => ?_⟩
  simp only [passes, h.ordered_right inclusive]

theorem makesAlike_ranged : MakesAlike ranged := by
  intro arguments arguments' made made' hagree hmade hmade'
  obtain ⟨lower, upper, flag, x, y, inclusive, rfl, hx, hy, hinclusive, rfl⟩ := ranged_eq_ok hmade
  obtain ⟨lower', upper', flag', x', y', inclusive', rfl, hx', hy', hinclusive', rfl⟩ :=
    ranged_eq_ok hmade'
  obtain ⟨hlower, hrest⟩ := List.forall₂_cons.1 hagree
  obtain ⟨hupper, hflag⟩ := List.forall₂_cons.1 hrest
  obtain rfl := inclusive_eq_of_agreeAll hflag hinclusive hinclusive'
  refine ⟨rfl, fun text => ?_⟩
  simp only [passes, (Value.samePlace_of_agrees hlower hx hx').ordered_left,
    (Value.samePlace_of_agrees hupper hy hy').ordered_right]

/-- Equal members equal the same texts. -/
theorem makesAlike_membered : MakesAlike membered := by
  have hmembers : ∀ {values values' : List Value}, AgreeAll values values' → ∀ text,
      values.any (·.matchesText text) = values'.any (·.matchesText text) := by
    intro values values' h text
    induction h with
    | nil => rfl
    | cons hfirst _ ih => rw [List.any_cons, List.any_cons, ih, Value.matchesText_of_agrees hfirst]
  intro arguments arguments' made made' hagree hmade hmade'
  cases hagree with
  | nil => cases hmade
  | cons hfirst hrest =>
    cases hmade
    cases hmade'
    exact ⟨rfl, hmembers (.cons hfirst hrest)⟩

/-- No built-in rule but the pattern tells equal arguments apart. -/
theorem makesAlike_of_builtIn? {slug : String} {make : List Value → Except ArgumentFault Rule}
    (h : builtIn? slug = some make) (hslug : slug ≠ "regex") : MakesAlike make := by
  unfold builtIn? at h
  split at h <;> cases h
  · exact makesAlike_plain _
  · exact makesAlike_plain _
  · exact makesAlike_plain _
  · exact makesAlike_plain _
  · exact absurd rfl hslug
  · exact makesAlike_membered
  · exact makesAlike_bounded fun _ _ => testsAlike_min
  · exact makesAlike_bounded fun _ _ => testsAlike_max
  · exact makesAlike_ranged

end Rule

/-! ## Calls that compare alike -/

theorem forall₂_of_beq {α : Type} [BEq α] {as bs : List α} (h : (as == bs) = true) :
    List.Forall₂ (fun a b => (a == b) = true) as bs := by
  induction as generalizing bs with
  | nil =>
    cases bs with
    | nil => exact .nil
    | cons => cases h
  | cons a as ih =>
    cases bs with
    | nil => cases h
    | cons b bs =>
      obtain ⟨hfirst, hrest⟩ := (Bool.and_eq_true _ _).mp h
      exact .cons hfirst (ih hrest)

namespace RuleBook

/-- Whether the rule of a name may tell the zeros apart: a pattern does, and a rule of the application
may. -/
def SeesSigns (book : RuleBook) (slug : String) : Prop :=
  slug = "regex" ∨ book.custom.contains slug = true

/-- Calls whose arguments have the same signs, if the rule sees them. -/
def KeepsSigns (book : RuleBook) (call call' : RuleCall) : Prop :=
  book.SeesSigns call.slug → List.Forall₂ Value.SameSign call.arguments call'.arguments

variable {book : RuleBook} {call call' : RuleCall} {rule rule' : Rule}

/-- Where signs are not seen, the rule is a built-in one. -/
theorem exists_of_resolve (h : book.resolve call = .ok rule) (hsees : ¬ book.SeesSigns call.slug) :
    ∃ make, Rule.builtIn? call.slug = some make ∧ make call.arguments = .ok rule := by
  have hcustom : book.custom.get? call.slug = none := by
    have hnot : ¬ book.custom.contains call.slug = true := fun hcontains => hsees (Or.inr hcontains)
    rw [SortedMap.get?, Option.map_eq_none_iff, List.find?_eq_none]
    intro entry hentry hname
    exact hnot (List.any_eq_true.2 ⟨entry, hentry, hname⟩)
  unfold resolve RuleBook.rule at h
  split at h
  · cases h
  · rename_i make hmake
    rw [maker?, hcustom] at hmake
    refine ⟨make, hmake, ?_⟩
    cases hmade : make call.arguments with
    | error fault =>
      rw [hmade] at h
      cases h
    | ok made =>
      rw [hmade] at h
      cases h
      rfl

/-- Equal calls make rules that pass the same texts. -/
theorem testsAlike_of_resolve (h : book.resolve call = .ok rule) (h' : book.resolve call' = .ok rule')
    (hagrees : (call == call') = true) (hsigns : book.KeepsSigns call call') : rule.TestsAlike rule' := by
  obtain ⟨slug, arguments⟩ := call
  obtain ⟨slug', arguments'⟩ := call'
  obtain ⟨hslug, harguments⟩ := (Bool.and_eq_true _ _).mp hagrees
  obtain rfl : slug = slug' := beq_iff_eq.1 hslug
  have hagree : Rule.AgreeAll arguments arguments' := forall₂_of_beq harguments
  by_cases hsees : book.SeesSigns slug
  · -- the arguments are the same, and so is the rule
    obtain rfl : arguments = arguments' := Rule.eq_of_agreeAll hagree (hsigns hsees)
    rw [h'] at h
    cases h
    exact .refl _
  · obtain ⟨make, hmake, hmade⟩ := exists_of_resolve h hsees
    obtain ⟨make', hmake', hmade'⟩ := exists_of_resolve h' hsees
    rw [hmake'] at hmake
    cases hmake
    exact Rule.makesAlike_of_builtIn? hmake' (fun hregex => hsees (Or.inl hregex)) hagree hmade hmade'

end RuleBook

/-! ## Templates -/

/-- Variables that read the same captures alike. -/
structure Variable.TestsAlike (v w : Variable) : Prop where
  /-- They have one name. -/
  name : v.name = w.name
  /-- They have one default. -/
  default : v.default = w.default
  /-- Their values have one type. -/
  type : v.type = w.type
  /-- Their rules pass the same texts, one by one. -/
  rules : List.Forall₂ Rule.TestsAlike v.rules w.rules

/-- Two variables have the same signs among their arguments wherever these are seen. -/
def Variable.KeepsSigns (book : RuleBook) (v w : Variable) : Prop :=
  List.Forall₂ book.KeepsSigns v.calls w.calls

namespace Template

variable {book : RuleBook}

theorem testsAlike_of_resolveRules {name name' : String} {calls calls' : List RuleCall}
    {rules rules' : List Rule} (h : resolveRules book name calls = .ok rules)
    (h' : resolveRules book name' calls' = .ok rules') (hcalls : (calls == calls') = true)
    (hsigns : List.Forall₂ book.KeepsSigns calls calls') : List.Forall₂ Rule.TestsAlike rules rules' := by
  have hmade := forall₂_of_resolveRules h
  have hmade' := forall₂_of_resolveRules h'
  have hagree := forall₂_of_beq hcalls
  clear h h' hcalls
  induction hmade generalizing calls' rules' with
  | nil =>
    cases hagree
    cases hmade'
    exact .nil
  | cons hrule _ ih =>
    cases hagree with
    | cons hfirst hagree =>
      cases hmade' with
      | cons hrule' hmade' =>
        cases hsigns with
        | cons hsign hsigns =>
          exact .cons (RuleBook.testsAlike_of_resolve hrule hrule' hfirst hsign) (ih hsigns hmade' hagree)

theorem testsAlike_of_vars {vars vars' : List Variable}
    (h : ∀ v ∈ vars, resolveRules book v.name v.calls = .ok v.rules)
    (h' : ∀ v ∈ vars', resolveRules book v.name v.calls = .ok v.rules) (hvars : (vars == vars') = true)
    (hsigns : List.Forall₂ (Variable.KeepsSigns book) vars vars') :
    List.Forall₂ Variable.TestsAlike vars vars' := by
  have hagree := forall₂_of_beq hvars
  clear hvars
  induction hagree with
  | nil => exact .nil
  | @cons v w vars vars' hfirst _ ih =>
    obtain ⟨hv, hrest⟩ := List.forall_mem_cons.1 h
    obtain ⟨hw, hrest'⟩ := List.forall_mem_cons.1 h'
    obtain ⟨hsign, hsigns⟩ := List.forall₂_cons.1 hsigns
    have hparts : v.agrees w = true := hfirst
    simp only [Variable.agrees, Bool.and_eq_true, beq_iff_eq] at hparts
    obtain ⟨⟨⟨⟨hname, hcalls⟩, hdefault⟩, -⟩, htype⟩ := hparts
    exact .cons ⟨hname, hdefault, htype, testsAlike_of_resolveRules hv hw hcalls hsign⟩
      (ih hrest hrest' hsigns)

/-- Rules that pass the same texts fail alike. -/
theorem map_slug_find? {rules rules' : List Rule} (h : List.Forall₂ Rule.TestsAlike rules rules')
    (text : String) :
    (rules.find? (!·.passes text)).map Rule.slug = (rules'.find? (!·.passes text)).map Rule.slug := by
  induction h with
  | nil => rfl
  | cons hfirst _ ih =>
    rw [List.find?_cons, List.find?_cons, hfirst.passes text]
    split
    · exact congrArg some hfirst.slug
    · exact ih

/-- Variables that are tested alike read the same from a match. -/
theorem readVariables_of_testsAlike {vars vars' : List Variable}
    (h : List.Forall₂ Variable.TestsAlike vars vars') (captures : Pattern.Captures) :
    readVariables captures vars = readVariables captures vars' := by
  induction h with
  | nil => rfl
  | @cons v w vars vars' hfirst _ ih =>
    have htext : v.text? captures = w.text? captures := by
      rw [Variable.text?, Variable.text?, hfirst.name, hfirst.default]
    rw [readVariables, readVariables, htext, ih]
    cases w.text? captures with
    | none => rfl
    | some text =>
      have hslug : (v.failedRule? text).map Rule.slug = (w.failedRule? text).map Rule.slug :=
        map_slug_find? hfirst.rules text
      cases hfailed : v.failedRule? text with
      | none =>
        have hfailed' : w.failedRule? text = none := by simpa [hfailed] using hslug.symm
        simp only [hfailed, hfailed', hfirst.name, hfirst.type]
      | some rule =>
        obtain ⟨rule', hfailed', hname⟩ : ∃ rule', w.failedRule? text = some rule' ∧ rule'.slug = rule.slug := by
          simpa [hfailed] using hslug.symm
        simp only [hfailed, hfailed', hfirst.name, hname]

/-- A pattern is known by its text. -/
theorem pattern_eq_of_source {source source' : String} {pattern pattern' : Pattern}
    (h : Pattern.ofSource source = .ok pattern) (h' : Pattern.ofSource source' = .ok pattern')
    (hsource : pattern.source = pattern'.source) : pattern = pattern' := by
  rw [source_of_ofSource h, source_of_ofSource h'] at hsource
  rw [hsource, h'] at h
  exact (Except.ok.inj h).symm

/-- Templates of one rule book that compare equal make the same of every request, if the signs of zeros
among their arguments agree wherever a rule may see them. -/
theorem extract_eq_of_testsAlike {path path' : String} {host host' : Option String}
    {template template' : Template} (h : compile book path host = .ok template)
    (h' : compile book path' host' = .ok template') (halike : template.testsAlike template' = true)
    (hsigns : List.Forall₂ (Variable.KeepsSigns book) template.vars template'.vars) (subject : String) :
    template.extract subject = template'.extract subject := by
  obtain ⟨-, -, hcompiled⟩ := compile_eq_ok h
  obtain ⟨-, -, hcompiled'⟩ := compile_eq_ok h'
  simp only [testsAlike, Bool.and_eq_true, beq_iff_eq] at halike
  obtain ⟨⟨hsource, hvars⟩, -⟩ := halike
  have hpattern := pattern_eq_of_source hcompiled.pattern hcompiled'.pattern hsource
  have hrules := fun v hv => (rules_of_compileSites hcompiled.vars v hv).1
  have hrules' := fun v hv => (rules_of_compileSites hcompiled'.vars v hv).1
  have htests := testsAlike_of_vars hrules hrules' hvars hsigns
  rw [extract, extract, hpattern]
  cases template'.pattern.search subject with
  | none => rfl
  | some captures => exact readVariables_of_testsAlike htests captures

/-- The path of one variable with a built-in rule that has one argument. -/
theorem compile_argument {slug : String} (hslug : slug ∈ Rule.builtInSlugs) {value : Value}
    (hvalue : value.IsArgument) :
    compile .standard (":x(" ++ slug ++ "(" ++ String.ofList value.argumentChars ++ "))") none
      = (resolveRules .standard "x" [⟨slug, [value]⟩]).map
          (ofVariable (":x(" ++ slug ++ "(" ++ String.ofList value.argumentChars ++ "))") "x"
            [⟨slug, [value]⟩]) := by
  have htext : (Tree.sequence [.variable "x" [⟨slug, [value]⟩] none]).text
      = ":x(" ++ slug ++ "(" ++ String.ofList value.argumentChars ++ "))" := by
    rw [← String.toList_inj]
    simp [Tree.text, Tree.chars, Tree.charsOf, RuleCall.listChars, RuleCall.chars, Text.joinCommas,
      defaultChars]
  rw [← htext]
  refine compile_of_isListed ⟨'x', [], rfl, rfl, rfl⟩ (List.forall_mem_singleton.2 ?_)
  exact isListed_of_mem_builtInSlugs hslug (List.forall_mem_singleton.2 hvalue)

theorem argumentChars_zero (negative : Bool) :
    String.ofList (Value.float (.ofMagnitude negative 0)).argumentChars = cond negative "-0.0" "0.0" := by
  cases negative <;> decide

/-- Paths of one variable are tested alike if their calls are equal and the rules imply one type. -/
theorem testsAlike_ofVariable {raw raw' name : String} {calls calls' : List RuleCall}
    {rules rules' : List Rule} (hcalls : (calls == calls') = true)
    (htype : valueType rules = valueType rules') :
    (ofVariable raw name calls rules).testsAlike (ofVariable raw' name calls' rules') = true := by
  have hvariable : ((⟨name, calls, rules, none, false, valueType rules⟩ : Variable)
      == ⟨name, calls', rules', none, false, valueType rules'⟩) = true := by
    show Variable.agrees _ _ = true
    simp [Variable.agrees, hcalls, htype]
  have hvars : ([⟨name, calls, rules, none, false, valueType rules⟩] : List Variable)
      == [⟨name, calls', rules', none, false, valueType rules'⟩] := by
    simpa using hvariable
  simp only [testsAlike, ofVariable, Bool.and_eq_true]
  exact ⟨⟨beq_iff_eq.2 rfl, hvars⟩, rfl⟩

/-- A bound is the same with either zero. -/
theorem extract_eq_of_testsAlike_bound : ∃ template template',
    compile .standard ":x(min(0.0))" none = .ok template
      ∧ compile .standard ":x(min(-0.0))" none = .ok template'
      ∧ template.testsAlike template' = true
      ∧ ∀ subject, template.extract subject = template'.extract subject := by
  have hslug : "min" ∈ Rule.builtInSlugs := by decide
  have h := @compile_argument "min" hslug (.float (.ofMagnitude false 0)) rfl
  have h' := @compile_argument "min" hslug (.float (.ofMagnitude true 0)) rfl
  rw [argumentChars_zero] at h h'
  have hunseen : ¬ RuleBook.standard.SeesSigns "min" := by
    rintro (hregex | hcustom)
    · exact absurd hregex (by decide)
    · cases hcustom
  have halike := @testsAlike_ofVariable ":x(min(0.0))" ":x(min(-0.0))" "x"
    [⟨"min", [.float (.ofMagnitude false 0)]⟩] [⟨"min", [.float (.ofMagnitude true 0)]⟩]
    [.min (.ofMagnitude false 0) true] [.min (.ofMagnitude true 0) true] (by decide) rfl
  refine ⟨_, _, h, h', halike, extract_eq_of_testsAlike h h' halike ?_⟩
  exact .cons (.cons (fun hsees => absurd hsees hunseen) .nil) .nil

/-- A pattern is another with the other zero. -/
theorem extract_signed_zeros : ∃ template template',
    compile .standard ":x(regex(0.0))" none = .ok template
      ∧ compile .standard ":x(regex(-0.0))" none = .ok template'
      ∧ template.testsAlike template' = true
      ∧ template.extract (Template.subject "" "/a0") ≠ template'.extract (Template.subject "" "/a0") := by
  have htext : (Value.float (.ofMagnitude false 0)).text = "0" := by decide
  have htext' : (Value.float (.ofMagnitude true 0)).text = "-0" := by decide
  have hread : Pattern.Progress.finish {} "0".toList = .ok (.char '0' false) := by
    rw [show "0".toList = ['0'] from rfl, Pattern.Progress.finish_of_step rfl, Pattern.Progress.finish]
    rfl
  have hread' : Pattern.Progress.finish {} "-0".toList
      = .ok (.sequence [.char '-' false, .char '0' false]) := by
    rw [show "-0".toList = ['-', '0'] from rfl, Pattern.Progress.finish_of_step rfl,
      Pattern.Progress.finish_of_step rfl, Pattern.Progress.finish]
    rfl
  have hslug : "regex" ∈ Rule.builtInSlugs := by decide
  have h := @compile_argument "regex" hslug (.float (.ofMagnitude false 0)) rfl
  have h' := @compile_argument "regex" hslug (.float (.ofMagnitude true 0)) rfl
  rw [argumentChars_zero, resolveRules_regex, htext,
    ofSource_of_finish hread (by decide) (by decide +kernel)] at h
  rw [argumentChars_zero, resolveRules_regex, htext',
    ofSource_of_finish hread' (by decide) (by decide +kernel)] at h'
  have hpasses : (Rule.pattern ⟨"0", .char '0' false⟩).passes "a0" = true := by cbv
  have hfails : (Rule.pattern ⟨"-0", .sequence [.char '-' false, .char '0' false]⟩).passes "a0" = false := by
    cbv
  have hextract := @extract_ofVariable _ _ _ _ _ h "" "a0" (by decide) (by decide) (by decide)
  have hextract' := @extract_ofVariable _ _ _ _ _ h' "" "a0" (by decide) (by decide) (by decide)
  rw [List.find?_cons_of_neg (by simp [hpasses]), List.find?_nil] at hextract
  rw [List.find?_cons_of_pos (by simp [hfails])] at hextract'
  refine ⟨_, _, h, h', testsAlike_ofVariable (by decide) rfl, ?_⟩
  rw [show "/a0" = "/" ++ "a0" from rfl, hextract, hextract']
  exact Extraction.noConfusion

end Template

end UriRouting
