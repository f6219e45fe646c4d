import UriRouting.Proofs.Template.Leaves
import UriRouting.Proofs.Template.Structure
/-!
# What is reported of a template

A template can be faulty in several places at once. The path's grammar is looked at first and the host's
second; then the variables are gone through in order, those of the host first, and the first that offends is
reported. A variable offends by a name that came before, or else by its first rule that cannot be made, or
else by a default that its rules do not let pass. Where none offends, only the two limits of patterns can
keep the template from being made, and the depth counts before the size.

* `Template.Offends` says what is wrong with one variable, and `Template.FirstOffence` which of several
  variables is reported;
* `compileSites_reports` goes through the variables;
* `Template.Compilation` says what is made of a path and a host, and `compile_eq_iff` that it is what
  compilation gives.
-/

namespace UriRouting

open UriRouting.Tree

namespace Template

/-! ## Offences -/

/-- A rule of a rule book for each call. -/
def MakesAll (book : RuleBook) : List RuleCall → List Rule → Prop :=
  List.Forall₂ fun call rule => book.resolve call = .ok rule

/-- A variable offends, where some names have been seen in front of it. -/
inductive Offends (book : RuleBook) (seen : List String) (site : Site) : DeclarationError → Prop where
  /-- Its name has been seen. -/
  | duplicate (h : site.name ∈ seen) : Offends book seen site (.duplicateVariable site.name)
  /-- The first of its rules that cannot be made has a name without meaning. -/
  | unknownRule {front back : List RuleCall} {call : RuleCall} (hnew : site.name ∉ seen)
      (hcalls : site.calls = front ++ call :: back) (hfront : Resolves book front)
      (hmaker : book.maker? call.slug = none) :
      Offends book seen site (.rule (some site.name) (.unknown call.slug))
  /-- The first of its rules that cannot be made does not take its arguments. -/
  | ruleArguments {front back : List RuleCall} {call : RuleCall}
      {make : List Value → Except ArgumentFault Rule} {fault : ArgumentFault} (hnew : site.name ∉ seen)
      (hcalls : site.calls = front ++ call :: back) (hfront : Resolves book front)
      (hmaker : book.maker? call.slug = some make) (hfault : make call.arguments = .error fault) :
      Offends book seen site (.rule (some site.name) (.arguments call.slug fault))
  /-- All rules are made, and its default fails one. -/
  | default {rules : List Rule} {rule : Rule} {text : String} (hnew : site.name ∉ seen)
      (hrules : MakesAll book site.calls rules) (hdefault : site.default = some text) (hrule : rule ∈ rules)
      (hfails : rule.passes text = false) : Offends book seen site (.rejectedDefault site.name text)

/-- None of some variables offends. -/
def NoneOffends (book : RuleBook) (places : List Site) : Prop :=
  ∀ front site back, places = front ++ site :: back →
    ∀ e, ¬ Offends book (front.map (·.name)) site e

/-- The first of some variables that offends. -/
def FirstOffence (book : RuleBook) (places : List Site) (e : DeclarationError) : Prop :=
  ∃ front site back, places = front ++ site :: back ∧ NoneOffends book front
    ∧ Offends book (front.map (·.name)) site e

variable {book : RuleBook}

/-- Only which names have been seen counts. -/
theorem Offends.congr {seen seen' : List String} (hseen : ∀ name, name ∈ seen ↔ name ∈ seen') {site : Site}
    {e : DeclarationError} (h : Offends book seen site e) : Offends book seen' site e := by
  cases h with
  | duplicate h => exact .duplicate ((hseen _).1 h)
  | unknownRule hnew hcalls hfront hmaker =>
    exact .unknownRule (mt (hseen _).2 hnew) hcalls hfront hmaker
  | ruleArguments hnew hcalls hfront hmaker hfault =>
    exact .ruleArguments (mt (hseen _).2 hnew) hcalls hfront hmaker hfault
  | default hnew hrules hdefault hrule hfails =>
    exact .default (mt (hseen _).2 hnew) hrules hdefault hrule hfails

theorem makesAll_of_resolveRules {name : String} {calls : List RuleCall} {rules : List Rule}
    (h : resolveRules book name calls = .ok rules) : MakesAll book calls rules :=
  forall₂_of_resolveRules h

/-- Rules that are made are those that a variable gets. -/
theorem resolveRules_of_makesAll {calls : List RuleCall} {rules : List Rule} (h : MakesAll book calls rules)
    (name : String) : resolveRules book name calls = .ok rules := by
  induction h with
  | nil => rfl
  | cons hrule _ ih =>
    rw [resolveRules, hrule, ih]
    rfl

/-- A rule is not made if its name has no meaning, or if it does not take its arguments. -/
theorem resolve_eq_error_iff {call : RuleCall} {fault : RuleFault} :
    book.resolve call = .error fault
      ↔ (book.maker? call.slug = none ∧ fault = .unknown call.slug)
        ∨ ∃ make reason, book.maker? call.slug = some make ∧ make call.arguments = .error reason
            ∧ fault = .arguments call.slug reason := by
  unfold RuleBook.resolve RuleBook.rule
  cases book.maker? call.slug with
  | none => simp [eq_comm]
  | some make =>
    cases hmake : make call.arguments with
    | ok rule => simp [hmake, Except.mapError]
    | error reason => simp [hmake, Except.mapError, eq_comm]

/-- A variable with a new name offends by the first rule that is not made. -/
theorem Offends.of_resolve {seen : List String} {site : Site} {front back : List RuleCall} {call : RuleCall}
    {fault : RuleFault} (hnew : site.name ∉ seen) (hcalls : site.calls = front ++ call :: back)
    (hfront : Resolves book front) (hfault : book.resolve call = .error fault) :
    Offends book seen site (.rule (some site.name) fault) := by
  rcases resolve_eq_error_iff.1 hfault with ⟨hmaker, rfl⟩ | ⟨make, reason, hmaker, hmake, rfl⟩
  · exact .unknownRule hnew hcalls hfront hmaker
  · exact .ruleArguments hnew hcalls hfront hmaker hmake

/-- A variable is refused exactly where it offends. -/
theorem compileSite_eq_error_iff {seen : List String} {site : Site} {e : DeclarationError} :
    compileSite book seen site = .error e ↔ Offends book seen site e := by
  constructor
  · intro h
    unfold compileSite at h
    split at h
    · rename_i hseen
      cases h
      exact .duplicate (by simpa using hseen)
    rename_i hnew
    replace hnew : site.name ∉ seen := by simpa using hnew
    split at h
    · rename_i hrules
      cases h
      obtain ⟨front, call, back, fault, hcalls, hfront, hfault, rfl⟩ := resolveRules_eq_error_iff.1 hrules
      exact .of_resolve hnew hcalls hfront hfault
    rename_i rules hrules
    split at h
    · rename_i text hrejected
      cases h
      obtain ⟨hdefault, hfails⟩ := Option.filter_eq_some_iff.1 hrejected
      obtain ⟨rule, hrule, hfails⟩ : ∃ rule ∈ rules, rule.passes text = false := by simpa using hfails
      exact .default hnew (makesAll_of_resolveRules hrules) hdefault hrule hfails
    · cases h
  · intro h
    cases h with
    | duplicate h => rw [compileSite, if_pos (by simpa using h)]
    | unknownRule hnew hcalls hfront hmaker =>
      have hfault := resolve_eq_error_iff.2 (Or.inl ⟨hmaker, rfl⟩)
      have hrules : resolveRules book site.name site.calls = .error _ :=
        resolveRules_eq_error_iff.2 ⟨_, _, _, _, hcalls, hfront, hfault, rfl⟩
      rw [compileSite, if_neg (by simpa using hnew), hrules]
    | ruleArguments hnew hcalls hfront hmaker hmake =>
      have hfault := resolve_eq_error_iff.2 (Or.inr ⟨_, _, hmaker, hmake, rfl⟩)
      have hrules : resolveRules book site.name site.calls = .error _ :=
        resolveRules_eq_error_iff.2 ⟨_, _, _, _, hcalls, hfront, hfault, rfl⟩
      rw [compileSite, if_neg (by simpa using hnew), hrules]
    | @default rules rule text hnew hrules hdefault hrule hfails =>
      have hrejected : site.default.filter (fun value => !rules.all (·.passes value)) = some text := by
        rw [Option.filter_eq_some_iff]
        exact ⟨hdefault, by simpa using ⟨rule, hrule, hfails⟩⟩
      rw [compileSite, if_neg (by simpa using hnew), resolveRules_of_makesAll hrules]
      simp only [hrejected]

/-! ## Going through the variables -/

theorem noneOffends_nil : NoneOffends book [] := by
  intro front site back h
  simp at h

/-- One more variable behind others that do not offend. -/
theorem NoneOffends.concat {places : List Site} (h : NoneOffends book places) {site : Site}
    (hsite : ∀ e, ¬ Offends book (places.map (·.name)) site e) : NoneOffends book (places ++ [site]) := by
  intro front other back hsplit
  rcases List.append_eq_append_iff.1 hsplit with ⟨between, rfl, hback⟩ | ⟨between, rfl, hback⟩
  · cases between with
    | nil =>
      cases hback
      rwa [List.append_nil]
    | cons => simp at hback
  · cases between with
    | nil =>
      cases hback
      simpa using hsite
    | cons first between =>
      obtain ⟨rfl, -⟩ := List.cons.inj hback
      exact h front _ between rfl

/-- Variables are compiled until one offends. Those in front have been gone through, and the names that have
been seen are theirs. -/
theorem compileSites_reports {seen : List String} {before places : List Site}
    (hseen : ∀ name, name ∈ before.map (·.name) ↔ name ∈ seen) (hbefore : NoneOffends book before) :
    (∃ e, compileSites book seen places = .error e ∧ FirstOffence book (before ++ places) e)
      ∨ ∃ vars, compileSites book seen places = .ok vars ∧ NoneOffends book (before ++ places) := by
  induction places generalizing seen before with
  | nil =>
    rw [List.append_nil]
    exact Or.inr ⟨[], rfl, hbefore⟩
  | cons site places ih =>
    rw [compileSites]
    cases hsite : compileSite book seen site with
    | error e =>
      have hoffends := (compileSite_eq_error_iff.1 hsite).congr fun name => (hseen name).symm
      exact Or.inl ⟨e, rfl, before, site, places, rfl, hbefore, hoffends⟩
    | ok v =>
      have hfine : ∀ e, ¬ Offends book (before.map (·.name)) site e := by
        intro e hoffends
        have herror := compileSite_eq_error_iff.2 (hoffends.congr hseen)
        rw [hsite] at herror
        cases herror
      have hseen' : ∀ name, name ∈ (before ++ [site]).map (·.name) ↔ name ∈ site.name :: seen := by
        intro name
        simp [← hseen, or_comm]
      rw [List.append_cons]
      rcases ih hseen' (hbefore.concat hfine) with ⟨e, hrest, hfirst⟩ | ⟨vars, hrest, hnone⟩
      · refine Or.inl ⟨e, ?_, hfirst⟩
        rw [hrest]
        rfl
      · refine Or.inr ⟨v :: vars, ?_, hnone⟩
        rw [hrest]
        rfl

/-- If none offends, no first one does. -/
theorem NoneOffends.not_firstOffence {places : List Site} (h : NoneOffends book places)
    (e : DeclarationError) : ¬ FirstOffence book places e := by
  rintro ⟨front, site, back, hsplit, -, hoffends⟩
  exact h front site back hsplit e hoffends

/-- There is only one first offence. -/
theorem FirstOffence.unique {places : List Site} {e e' : DeclarationError} (h : FirstOffence book places e)
    (h' : FirstOffence book places e') : e = e' := by
  obtain ⟨front, site, back, rfl, hfront, hsite⟩ := h
  obtain ⟨front', site', back', hsplit, hfront', hsite'⟩ := h'
  rcases List.append_eq_append_iff.1 hsplit with ⟨between, rfl, hback⟩ | ⟨between, rfl, hback⟩
  · cases between with
    | nil =>
      obtain ⟨rfl, -⟩ := List.cons.inj hback
      rw [List.append_nil] at hsite'
      have herror := compileSite_eq_error_iff.2 hsite
      rw [compileSite_eq_error_iff.2 hsite'] at herror
      cases herror
      rfl
    | cons first between =>
      obtain ⟨rfl, -⟩ := List.cons.inj hback
      exact absurd hsite (hfront' front site between rfl e)
  · cases between with
    | nil =>
      obtain ⟨rfl, -⟩ := List.cons.inj hback
      rw [List.append_nil] at hsite
      have herror := compileSite_eq_error_iff.2 hsite
      rw [compileSite_eq_error_iff.2 hsite'] at herror
      cases herror
      rfl
    | cons first between =>
      obtain ⟨rfl, -⟩ := List.cons.inj hback
      exact absurd hsite' (hfront front' site' between rfl e')

/-! ## Types -/

/-- A rule is one of the two built-in ones for numbers. -/
def IsNumeric (rule : Rule) : Prop :=
  rule = .int ∨ rule = .float

/-- The type of a variable's values: that of its first rule for numbers, and else text. -/
inductive FirstType : List Rule → ValueType → Prop where
  | int (rules : List Rule) : FirstType (.int :: rules) .int
  | float (rules : List Rule) : FirstType (.float :: rules) .float
  | other {rule : Rule} {rules : List Rule} {type : ValueType} (hrule : ¬ IsNumeric rule)
      (h : FirstType rules type) : FirstType (rule :: rules) type
  | none : FirstType [] .string

theorem firstType_iff {rules : List Rule} {type : ValueType} :
    FirstType rules type ↔ type = valueType rules := by
  constructor
  · intro h
    induction h with
    | int | float | none => rfl
    | @other rule rules type hrule _ ih =>
      cases rule with
      | int => exact absurd (Or.inl rfl) hrule
      | float => exact absurd (Or.inr rfl) hrule
      | _ => exact ih
  · rintro rfl
    induction rules with
    | nil => exact .none
    | cons rule rules ih =>
      cases rule with
      | int => exact .int rules
      | float => exact .float rules
      | _ => exact .other (by simp [IsNumeric]) ih

/-! ## Compiled variables -/

/-- Some variables are what a template has at some places. -/
structure Lists (book : RuleBook) (places : List Site) (vars : List Variable) : Prop where
  /-- They stand at the places, in order. -/
  sites : vars.map (·.site) = places
  /-- No name comes twice. -/
  names : (vars.map (·.name)).Nodup
  /-- They have the rules that they call for. -/
  rules : ∀ v ∈ vars, MakesAll book v.calls v.rules
  /-- They have the types that their rules give. -/
  types : ∀ v ∈ vars, FirstType v.rules v.type

theorem lists_of_compileSites {places : List Site} {vars : List Variable}
    (h : compileSites book [] places = .ok vars) : Lists book places vars where
  sites := map_site_of_compileSites h
  names := by
    obtain ⟨hnames, hnodup, -⟩ := names_of_compileSites h
    rwa [hnames]
  rules := fun v hv => makesAll_of_resolveRules (rules_of_compileSites h v hv).1
  types := fun v hv => firstType_iff.2 (type_of_compileSites h v hv)

/-- A variable is determined by its place. -/
theorem eq_of_site {v v' : Variable} (hsite : v.site = v'.site) (hrules : MakesAll book v.calls v.rules)
    (hrules' : MakesAll book v'.calls v'.rules) (htype : FirstType v.rules v.type)
    (htype' : FirstType v'.rules v'.type) : v = v' := by
  obtain ⟨name, calls, rules, default, optional, type⟩ := v
  obtain ⟨name', calls', rules', default', optional', type'⟩ := v'
  cases hsite
  have hmade := resolveRules_of_makesAll hrules name
  rw [resolveRules_of_makesAll hrules' name] at hmade
  cases hmade
  obtain rfl : type = type' := (firstType_iff.1 htype).trans (firstType_iff.1 htype').symm
  rfl

/-- The variables at some places are made, unless one offends. -/
theorem compileSites_gives (book : RuleBook) (places : List Site) :
    (∃ e, compileSites book [] places = .error e ∧ FirstOffence book places e)
      ∨ ∃ vars, compileSites book [] places = .ok vars ∧ NoneOffends book places
          ∧ Lists book places vars := by
  have hseen : ∀ name, name ∈ ([] : List Site).map (·.name) ↔ name ∈ ([] : List String) := by simp
  rcases compileSites_reports hseen noneOffends_nil with herror | ⟨vars, hvars, hnone⟩
  · exact Or.inl herror
  · exact Or.inr ⟨vars, hvars, hnone, lists_of_compileSites hvars⟩

/-- Only one list of variables is what a template has at some places. -/
theorem Lists.unique {places : List Site} {vars vars' : List Variable} (h : Lists book places vars)
    (h' : Lists book places vars') : vars = vars' := by
  have hlength : vars.length = vars'.length := by
    rw [← List.length_map Variable.site, h.sites, ← h'.sites, List.length_map]
  apply List.ext_getElem hlength
  intro i hi hi'
  have hsite : vars[i].site = vars'[i].site := by
    have heq : (vars.map (·.site))[i]? = (vars'.map (·.site))[i]? := by rw [h.sites, h'.sites]
    simpa [hi, hi'] using heq
  exact eq_of_site hsite (h.rules _ (List.getElem_mem hi)) (h'.rules _ (List.getElem_mem hi'))
    (h.types _ (List.getElem_mem hi)) (h'.types _ (List.getElem_mem hi'))

/-! ## Compilation -/

/-- The texts of a path and a host are read as trees. -/
structure Reads (path : String) (host : Option String) (tree : Tree) (side : Option TemplateSide) : Prop where
  /-- The path, without slashes in front, has its tree. -/
  path : Tree.parse (stripSlashes path) = .ok tree
  /-- The host is the text of its side. -/
  text : host = side.map (·.text)
  /-- The host has its tree. -/
  host : ∀ own ∈ side, Tree.parse own.text = .ok own.tree

/-- What is made of a path and a host. -/
inductive Compilation (book : RuleBook) (path : String) (host : Option String) :
    Except DeclarationError Template → Prop where
  /-- The path breaks the grammar. -/
  | pathFault {fault : SyntaxFault} (h : Tree.parse (stripSlashes path) = .error fault) :
      Compilation book path host (.error (.template (stripSlashes path) fault))
  /-- The path does not, and the host does. -/
  | hostFault {tree : Tree} {text : String} {fault : SyntaxFault}
      (hpath : Tree.parse (stripSlashes path) = .ok tree) (htext : host = some text)
      (h : Tree.parse text = .error fault) : Compilation book path host (.error (.template text fault))
  /-- A variable offends, and none in front of it does. -/
  | offence {tree : Tree} {side : Option TemplateSide} {e : DeclarationError}
      (hreads : Reads path host tree side)
      (h : FirstOffence book (variablesIn tree (side.map (·.tree))) e) : Compilation book path host (.error e)
  /-- No variable offends, but the pattern is too deep. -/
  | deep {tree : Tree} {side : Option TemplateSide} (hreads : Reads path host tree side)
      (hnone : NoneOffends book (variablesIn tree (side.map (·.tree))))
      (h : Pattern.maxNesting < (patternNode tree (side.map (·.tree))).nesting) :
      Compilation book path host (.error (.pattern .tooDeep))
  /-- No variable offends and the pattern is not too deep, but it is too big. -/
  | big {tree : Tree} {side : Option TemplateSide} (hreads : Reads path host tree side)
      (hnone : NoneOffends book (variablesIn tree (side.map (·.tree))))
      (hflat : (patternNode tree (side.map (·.tree))).nesting ≤ Pattern.maxNesting)
      (h : Pattern.maxSize < (patternNode tree (side.map (·.tree))).compiledSize) :
      Compilation book path host (.error (.pattern .tooBig))
  /-- No variable offends, the pattern is within both limits, and the variables are those of the trees. -/
  | made {tree : Tree} {side : Option TemplateSide} {vars : List Variable}
      (hreads : Reads path host tree side)
      (hnone : NoneOffends book (variablesIn tree (side.map (·.tree))))
      (hflat : (patternNode tree (side.map (·.tree))).nesting ≤ Pattern.maxNesting)
      (hsmall : (patternNode tree (side.map (·.tree))).compiledSize ≤ Pattern.maxSize)
      (hvars : Lists book (variablesIn tree (side.map (·.tree))) vars) :
      Compilation book path host (.ok ⟨⟨stripSlashes path, tree⟩, side, vars,
        ⟨patternSource tree (side.map (·.tree)), patternNode tree (side.map (·.tree))⟩⟩)

section

variable {path : String} {host : Option String} {tree : Tree} {side : Option TemplateSide}

theorem Reads.compile_eq (h : Reads path host tree side) :
    compile book path host =
      match compileSites book [] (variablesIn tree (side.map (·.tree))) with
      | .error e => .error e
      | .ok vars =>
        match Pattern.ofSource (patternSource tree (side.map (·.tree))) with
        | .ok pattern => .ok ⟨⟨stripSlashes path, tree⟩, side, vars, pattern⟩
        | .error fault => .error (.pattern fault) := by
  rw [← sitesIn_eq_variablesIn, h.text]
  exact compile_eq_of_parse h.path h.host

/-- Where no variable offends, the variables are made, and the limits of patterns decide. -/
theorem Reads.compile_eq_of_noneOffends (h : Reads path host tree side)
    (hnone : NoneOffends book (variablesIn tree (side.map (·.tree)))) :
    ∃ vars, Lists book (variablesIn tree (side.map (·.tree))) vars
      ∧ compile book path host
        = if Pattern.maxNesting < (patternNode tree (side.map (·.tree))).nesting then
            .error (.pattern .tooDeep)
          else if Pattern.maxSize < (patternNode tree (side.map (·.tree))).compiledSize then
            .error (.pattern .tooBig)
          else .ok ⟨⟨stripSlashes path, tree⟩, side, vars,
            ⟨patternSource tree (side.map (·.tree)), patternNode tree (side.map (·.tree))⟩⟩ := by
  rcases compileSites_gives book (variablesIn tree (side.map (·.tree))) with
    ⟨e, -, hfirst⟩ | ⟨vars, hvars, -, hlists⟩
  · exact absurd hfirst (hnone.not_firstOffence e)
  rw [← sitesIn_eq_variablesIn] at hvars
  rw [h.text]
  exact ⟨vars, hlists, compile_eq_of_vars h.path h.host hvars⟩

/-- Where a variable offends first, it is reported. -/
theorem Reads.compile_eq_of_firstOffence (h : Reads path host tree side) {e : DeclarationError}
    (hfirst : FirstOffence book (variablesIn tree (side.map (·.tree))) e) :
    compile book path host = .error e := by
  rcases compileSites_gives book (variablesIn tree (side.map (·.tree))) with
    ⟨e', he', hfirst'⟩ | ⟨_, -, hnone, -⟩
  · rw [h.compile_eq, he', hfirst.unique hfirst']
  · exact absurd hfirst (hnone.not_firstOffence e)

/-- A path and a host are read, or one of them breaks the grammar, and then the path counts first. -/
theorem exists_reads_or_fault (path : String) (host : Option String) :
    (∃ fault, Tree.parse (stripSlashes path) = .error fault)
      ∨ (∃ tree text fault, Tree.parse (stripSlashes path) = .ok tree ∧ host = some text
          ∧ Tree.parse text = .error fault)
      ∨ ∃ tree side, Reads path host tree side := by
  cases hpath : Tree.parse (stripSlashes path) with
  | error fault => exact Or.inl ⟨fault, rfl⟩
  | ok tree =>
    cases host with
    | none => exact Or.inr (Or.inr ⟨tree, none, hpath, rfl, by simp⟩)
    | some text =>
      cases hhost : Tree.parse text with
      | error fault => exact Or.inr (Or.inl ⟨tree, text, fault, rfl, rfl, hhost⟩)
      | ok own => exact Or.inr (Or.inr ⟨tree, some ⟨text, own⟩, hpath, rfl, by simpa using hhost⟩)

end

/-- What is made is what compilation gives. -/
theorem Compilation.compile_eq {path : String} {host : Option String}
    {result : Except DeclarationError Template} (h : Compilation book path host result) :
    compile book path host = result := by
  cases h with
  | pathFault h =>
    unfold compile parseSide
    rw [h]
    rfl
  | hostFault hpath htext h =>
    subst htext
    simp only [compile, parseSide, hpath, h, bind, Except.bind, Except.map]
  | offence hreads h => exact hreads.compile_eq_of_firstOffence h
  | deep hreads hnone h =>
    obtain ⟨vars, -, heq⟩ := hreads.compile_eq_of_noneOffends hnone
    rw [heq, if_pos h]
  | big hreads hnone hflat h =>
    obtain ⟨vars, -, heq⟩ := hreads.compile_eq_of_noneOffends hnone
    rw [heq, if_neg (Nat.not_lt_of_le hflat), if_pos h]
  | made hreads hnone hflat hsmall hvars =>
    obtain ⟨vars', hvars', heq⟩ := hreads.compile_eq_of_noneOffends hnone
    rw [heq, if_neg (Nat.not_lt_of_le hflat), if_neg (Nat.not_lt_of_le hsmall), hvars.unique hvars']

/-- Something is made of every path and host. -/
theorem exists_compilation (book : RuleBook) (path : String) (host : Option String) :
    ∃ result, Compilation book path host result := by
  rcases exists_reads_or_fault path host with
    ⟨fault, h⟩ | ⟨tree, text, fault, hpath, htext, h⟩ | ⟨tree, side, hreads⟩
  · exact ⟨_, .pathFault h⟩
  · exact ⟨_, .hostFault hpath htext h⟩
  rcases compileSites_gives book (variablesIn tree (side.map (·.tree))) with
    ⟨e, -, hfirst⟩ | ⟨vars, -, hnone, hvars⟩
  · exact ⟨_, .offence hreads hfirst⟩
  by_cases hflat : (patternNode tree (side.map (·.tree))).nesting ≤ Pattern.maxNesting
  · by_cases hsmall : (patternNode tree (side.map (·.tree))).compiledSize ≤ Pattern.maxSize
    · exact ⟨_, .made hreads hnone hflat hsmall hvars⟩
    · exact ⟨_, .big hreads hnone hflat (Nat.lt_of_not_le hsmall)⟩
  · exact ⟨_, .deep hreads hnone (Nat.lt_of_not_le hflat)⟩

/-- Compilation gives what is made of a path and a host: the first fault in the order path, host, variables,
depth, size, and without a fault the template whose variables are those of the trees. -/
theorem compile_eq_iff (book : RuleBook) (path : String) (host : Option String)
    (result : Except DeclarationError Template) :
    compile book path host = result ↔ Compilation book path host result := by
  constructor
  · rintro rfl
    obtain ⟨result, h⟩ := exists_compilation book path host
    rwa [h.compile_eq]
  · exact Compilation.compile_eq

/-- No variable offends and the pattern is not too deep, but it is too big. -/
theorem compile_letterRun :
    ∃ tree, Reads (letterRun 500000) none tree none ∧ NoneOffends .standard (variablesIn tree none)
      ∧ (patternNode tree none).nesting ≤ Pattern.maxNesting
      ∧ compile .standard (letterRun 500000) none = .error (.pattern .tooBig) := by
  have hreads : Reads (letterRun 500000) none (.sequence [.literal (letterRun 500000)]) none :=
    ⟨(stripSlashes_letterRun _).symm ▸ parse_letterRun (by decide), rfl, by simp⟩
  have hnone : NoneOffends .standard (variablesIn (.sequence [.literal (letterRun 500000)]) none) := by
    rw [← sitesIn_eq_variablesIn, sitesIn_literal]
    exact noneOffends_nil
  have hdepth := nesting_literal_le (letterRun 500000)
  exact ⟨_, hreads, hnone, hdepth,
    Compilation.compile_eq (.big hreads hnone hdepth (maxSize_lt_letterRun (by decide)))⟩

end Template

end UriRouting
