import UriRouting.Proofs.Dispatch.Regenerated
/-!
# What a match and a refusal say

A text becomes a value only when it satisfies the rules of its variable, and these give the variable its
type. So a text that is returned always reads as a value of the type, and the text itself is handed back
only where no rule implies one. Defaults are checked when a template is compiled, so a refusal is always
about a text of the request.

* `Rule.hasType_coerce` says that a text that satisfies a rule reads as the type that the rule implies;
* `Template.Returns` and `Template.Refuses` say what a match and a refusal are;
* `Template.extract_reports` says that whatever a template makes of a request is one of these.
-/

namespace UriRouting

open UriRouting.Tree

/-! ## Values of a type -/

/-- A value is one of a type; a number is finite. -/
inductive Value.HasType : Value → ValueType → Prop where
  | int (i : Int64) : HasType (.int i) .int
  | float {x : Binary64} (h : x.isFinite = true) : HasType (.float x) .float
  | string (s : String) : HasType (.string s) .string

/-- A text that satisfies a rule reads as the type that the rule implies. -/
theorem Rule.hasType_coerce {rule : Rule} {type : ValueType} {text : String}
    (htype : rule.valueType? = some type) (hpasses : rule.passes text = true) :
    (Value.coerce type text).HasType type := by
  cases rule with
  | int =>
    cases htype
    obtain ⟨i, hread⟩ := Option.isSome_iff_exists.1 hpasses
    rw [Value.coerce, hread]
    exact .int i
  | float =>
    cases htype
    obtain ⟨x, hfinite⟩ := Option.isSome_iff_exists.1 hpasses
    obtain ⟨hread, hx⟩ := Option.filter_eq_some_iff.1 hfinite
    rw [Value.coerce, hread]
    exact .float hx
  | _ => cases htype

/-- A text that satisfies some rules reads as the type that they give to a variable. -/
theorem Template.hasType_coerce {rules : List Rule} {text : String}
    (hpasses : ∀ rule ∈ rules, rule.passes text = true) :
    (Value.coerce (valueType rules) text).HasType (valueType rules) := by
  rw [valueType]
  cases htype : rules.findSome? (·.valueType?) with
  | none => exact .string text
  | some type =>
    obtain ⟨rule, hrule, himplies⟩ := List.exists_of_findSome?_eq_some htype
    exact Rule.hasType_coerce himplies (hpasses rule hrule)

/-! ## Texts of variables -/

namespace Variable

/-- A text satisfies all rules of a variable. -/
def Passes (v : Variable) (text : String) : Prop :=
  ∀ rule ∈ v.rules, rule.passes text = true

/-- The text of a variable in a match. -/
inductive HasText (v : Variable) (captures : Pattern.Captures) : String → Prop where
  /-- It is a text of the request. -/
  | captured {text : String} (h : captures.get? v.name = some text) : HasText v captures text
  /-- The variable was left out, and its default stands in. -/
  | default {text : String} (hnone : captures.get? v.name = none) (h : v.default = some text) :
      HasText v captures text

/-- A rule is the first of a variable that a text fails. -/
inductive FirstFailure (v : Variable) (text : String) : Rule → Prop where
  | intro {passed behind : List Rule} {rule : Rule} (hrules : v.rules = passed ++ rule :: behind)
      (hpassed : ∀ earlier ∈ passed, earlier.passes text = true) (hfails : rule.passes text = false) :
      FirstFailure v text rule

variable {v : Variable} {captures : Pattern.Captures} {text : String}

theorem hasText_iff : v.HasText captures text ↔ v.text? captures = some text := by
  rw [text?, Option.or_eq_some_iff]
  constructor
  · rintro (h | ⟨hnone, h⟩)
    · exact Or.inl h
    · exact Or.inr ⟨hnone, h⟩
  · rintro (h | ⟨hnone, h⟩)
    · exact .captured h
    · exact .default hnone h

theorem failedRule?_eq_none_iff : v.failedRule? text = none ↔ v.Passes text := by
  rw [failedRule?, List.find?_eq_none]
  simp [Passes]

/-- A text that fails a rule does not satisfy all rules. -/
theorem FirstFailure.not_passes {rule : Rule} (h : v.FirstFailure text rule) : ¬ v.Passes text := by
  cases h with
  | intro hrules _ hfails =>
    intro hpasses
    have hrule := hpasses rule (by simp [hrules])
    rw [hfails] at hrule
    cases hrule

theorem firstFailure_of_failedRule? {rule : Rule} (h : v.failedRule? text = some rule) :
    v.FirstFailure text rule := by
  obtain ⟨hfails, passed, behind, hrules, hpassed⟩ := List.find?_eq_some_iff_append.1 h
  refine .intro hrules ?_ (by simpa using hfails)
  intro earlier hearlier
  simpa using hpassed earlier hearlier

/-- Where the text that is read fails no rule, every text of the variable satisfies the rules. -/
theorem HasText.passes (hhas : v.HasText captures text)
    (h : ∀ own ∈ v.text? captures, v.failedRule? own = none) : v.Passes text :=
  failedRule?_eq_none_iff.1 (h text (hasText_iff.1 hhas))

end Variable

/-! ## Variables outside all optional segments -/

/-- A variable stands outside all optional segments of a tree. -/
inductive Tree.Requires (name : String) : Tree → Prop where
  /-- The tree is the variable. -/
  | variable {calls : List RuleCall} {default : Option String} :
      Requires name (.variable name calls default)
  /-- The variable stands so in a part of a sequence. -/
  | sequence {parts : List Tree} {part : Tree} (hpart : part ∈ parts) (h : Requires name part) :
      Requires name (.sequence parts)

/-- A part of what is derived is derived itself, with some of the texts. -/
theorem Tree.exists_derives_of_mem {side : Side} {parts : List Tree} {text : List Char}
    {choices : List Nat} {captured : List (String × List Char)}
    (h : DerivesAll side parts text choices captured) {part : Tree} (hpart : part ∈ parts) :
    ∃ own choices' captured', Derives side part own choices' captured'
      ∧ captured'.Sublist captured := by
  induction parts generalizing text choices captured with
  | nil => cases hpart
  | cons first parts ih =>
    cases h with
    | @cons _ _ own rest choices choices' captured captured' hfirst hparts =>
      rcases List.mem_cons.1 hpart with rfl | hpart
      · exact ⟨own, choices, captured, hfirst, List.sublist_append_left _ _⟩
      · obtain ⟨own, choices', captured'', hderives, hsublist⟩ := ih hparts hpart
        exact ⟨own, choices', captured'', hderives, hsublist.trans (List.sublist_append_right _ _)⟩

/-- A derivation has a text for each variable outside all optional segments. -/
theorem Tree.Requires.mem_of_derives {side : Side} {name : String} {tree : Tree}
    (hrequires : tree.Requires name) {text : List Char} {choices : List Nat}
    {captured : List (String × List Char)} (h : Derives side tree text choices captured) :
    name ∈ captured.map (·.1) := by
  induction hrequires generalizing text choices captured with
  | «variable» =>
    cases h
    exact List.mem_singleton.2 rfl
  | sequence hpart _ ih =>
    cases h with
    | sequence h =>
      obtain ⟨own, choices', captured', hderives, hsublist⟩ := exists_derives_of_mem h hpart
      exact (hsublist.map _).subset (ih hderives)

namespace Template

/-- A variable stands outside all optional segments of a template. -/
inductive Requires (template : Template) (name : String) : Prop where
  | host {tree : Tree} (htree : template.hostTree? = some tree) (h : tree.Requires name)
  | path (h : template.path.tree.Requires name)

variable {template : Template} {captures : Pattern.Captures}

/-- A cover has a text for each variable outside all optional segments. -/
theorem Covers.mem_of_requires {text : List Char} {captured : List (String × List Char)}
    (hcovers : template.Covers text captured) {name : String} (hrequires : template.Requires name) :
    name ∈ captured.map (·.1) := by
  cases hcovers with
  | intro _ hhost hpath =>
    rw [List.map_append, List.mem_append]
    cases hrequires with
    | host htree h =>
      rw [htree] at hhost
      cases hhost with
      | own hhost => exact Or.inl (h.mem_of_derives hhost)
    | path h => exact Or.inr (h.mem_of_derives hpath)

theorem isSome_lookup_of_mem {α : Type} {entries : List (String × α)} {name : String}
    (h : name ∈ entries.map (·.1)) : (entries.lookup name).isSome = true := by
  rw [Option.isSome_iff_ne_none]
  intro hnone
  exact lookup_eq_none_iff_notMem.1 hnone h

/-! ## Matches and refusals -/

/-- What is returned for a match. -/
structure Returns (template : Template) (captures : Pattern.Captures)
    (values : List (String × Value)) : Prop where
  /-- The values have names of variables, in the order of the template. -/
  names : (values.map (·.1)).Sublist template.variableNames
  /-- No name comes twice. -/
  nodup : (values.map (·.1)).Nodup
  /-- Every variable outside all optional segments has a value. -/
  required : ∀ name, template.Requires name → (values.lookup name).isSome = true
  /-- Every variable with a default has a value. -/
  defaulted : ∀ v ∈ template.vars, v.default.isSome = true → (values.lookup v.name).isSome = true
  /-- A value is one of the type of its variable. -/
  type : ∀ v ∈ template.vars, ∀ value ∈ values.lookup v.name, value.HasType v.type
  /-- A value is the text of its variable, and the text satisfies the rules. -/
  text : ∀ v ∈ template.vars, ∀ value ∈ values.lookup v.name,
    ∃ text, v.HasText captures text ∧ v.Passes text ∧ value = Value.coerce v.type text

/-- What is reported for a match that is refused: the first variable whose text fails a rule, which is a
text of the request, and the first rule that it fails. -/
inductive Refuses (template : Template) (captures : Pattern.Captures) : String → String → Prop where
  | intro {before after : List Variable} {v : Variable} {text : String} {rule : Rule}
      (hvars : template.vars = before ++ v :: after)
      (hbefore : ∀ earlier ∈ before, ∀ text, earlier.HasText captures text → earlier.Passes text)
      (hcaptured : captures.get? v.name = some text) (hfails : v.FirstFailure text rule) :
      Refuses template captures v.name rule.slug

/-- What a template may make of a request. -/
inductive Reports (template : Template) (subject : String) : Extraction → Prop where
  /-- The pattern does not match. -/
  | unmatched (hsearch : template.pattern.search subject = none) : Reports template subject .unmatched
  /-- The pattern matches, and all texts satisfy the rules. -/
  | matched {captures : Pattern.Captures} {values : List (String × Value)}
      (hsearch : template.pattern.search subject = some captures)
      (h : template.Returns captures values) : Reports template subject (.matched values)
  /-- The pattern matches, and a text of the request fails a rule. -/
  | rejected {captures : Pattern.Captures} {name slug : String}
      (hsearch : template.pattern.search subject = some captures)
      (h : template.Refuses captures name slug) : Reports template subject (.rejected name slug)

/-! ## Reading the variables -/

/-- Where values are read, all texts satisfy the rules. -/
theorem passes_of_readVariables {vars : List Variable} {values : List (String × Value)}
    (h : readVariables captures vars = .matched values) :
    ∀ v ∈ vars, ∀ text, v.HasText captures text → v.Passes text := by
  fun_induction readVariables captures vars generalizing values with
  | case1 => exact List.forall_mem_nil _
  | case2 v rest htext ih =>
    refine List.forall_mem_cons.2 ⟨?_, ih h⟩
    intro text hhas
    exact hhas.passes (by simp [htext])
  | case3 => cases h
  | case4 v rest text htext hpasses values' hrest ih =>
    refine List.forall_mem_cons.2 ⟨?_, ih hrest⟩
    intro text' hhas
    exact hhas.passes (by simp [htext, hpasses])
  | case5 v rest text htext hpasses hother ih => exact absurd h (hother values)

/-- Where a name is refused, it is that of the first variable with a text that fails a rule. -/
theorem exists_of_readVariables_eq_rejected {vars : List Variable} {name slug : String}
    (h : readVariables captures vars = .rejected name slug) :
    ∃ before v after text rule, vars = before ++ v :: after
      ∧ (∀ earlier ∈ before, ∀ text, earlier.HasText captures text → earlier.Passes text)
      ∧ v.HasText captures text ∧ v.FirstFailure text rule ∧ name = v.name ∧ slug = rule.slug := by
  fun_induction readVariables captures vars with
  | case1 => cases h
  | case2 v rest htext ih =>
    obtain ⟨before, failing, after, own, rule, rfl, hbefore, hfails⟩ := ih h
    refine ⟨v :: before, failing, after, own, rule, rfl, List.forall_mem_cons.2 ⟨?_, hbefore⟩, hfails⟩
    intro text hhas
    exact hhas.passes (by simp [htext])
  | case3 v rest text htext rule hrule =>
    cases h
    exact ⟨[], v, rest, text, rule, rfl, List.forall_mem_nil _, Variable.hasText_iff.2 htext,
      Variable.firstFailure_of_failedRule? hrule, rfl, rfl⟩
  | case4 => cases h
  | case5 v rest text htext hpasses hother ih =>
    obtain ⟨before, failing, after, own, rule, rfl, hbefore, hfails⟩ := ih h
    refine ⟨v :: before, failing, after, own, rule, rfl, List.forall_mem_cons.2 ⟨?_, hbefore⟩, hfails⟩
    intro text' hhas
    exact hhas.passes (by simp [htext, hpasses])

/-! ## What a compiled template makes of a request -/

variable {book : RuleBook} {subject : String}

/-- Values that are read from a search are what a match returns. -/
theorem IsCompiled.returns_of_readVariables (h : template.IsCompiled book)
    (hsearch : template.pattern.search subject = some captures) {values : List (String × Value)}
    (hread : readVariables captures template.vars = .matched values) :
    template.Returns captures values := by
  obtain ⟨captured, hcovers, hget⟩ := h.covers_of_search hsearch
  have hpasses := passes_of_readVariables hread
  obtain rfl := eq_of_readVariables hread
  have hlookup := fun v hv => @lookup_valuesOf captures _ h.nodup_vars v hv
  have htext : ∀ v ∈ template.vars, ∀ value ∈ (valuesOf captures template.vars).lookup v.name,
      ∃ text, v.HasText captures text ∧ v.Passes text ∧ value = Value.coerce v.type text := by
    intro v hv value hvalue
    rw [hlookup v hv, Option.mem_def, Option.map_eq_some_iff] at hvalue
    obtain ⟨text, hown, rfl⟩ := hvalue
    have hhas := Variable.hasText_iff.2 hown
    exact ⟨text, hhas, hpasses v hv text hhas, rfl⟩
  refine ⟨names_valuesOf _ _, h.nodup_vars.sublist (names_valuesOf _ _), ?_, ?_, ?_, htext⟩
  · intro name hrequires
    have hmem := hcovers.mem_of_requires hrequires
    have hname : name ∈ template.variableNames := by
      rw [h.variableNames_eq]
      exact hcovers.names.subset hmem
    exact h.isSome_lookup_valuesOf hget hname (isSome_lookup_of_mem hmem)
  · intro v hv hdefault
    rw [hlookup v hv, Option.isSome_map, Variable.text?, Option.isSome_or, hdefault, Bool.or_true]
  · intro v hv value hvalue
    obtain ⟨text, -, hown, rfl⟩ := htext v hv value hvalue
    rw [type_of_compileSites h.vars v hv]
    exact hasType_coerce hown

/-- A refusal is about a text of the request, as every default satisfies its rules. -/
theorem IsCompiled.refuses_of_readVariables (h : template.IsCompiled book) {name slug : String}
    (hread : readVariables captures template.vars = .rejected name slug) :
    template.Refuses captures name slug := by
  obtain ⟨before, v, after, text, rule, hvars, hbefore, hhas, hfails, rfl, rfl⟩ :=
    exists_of_readVariables_eq_rejected hread
  cases hhas with
  | captured hcaptured => exact .intro hvars hbefore hcaptured hfails
  | default _ hdefault =>
    have hv : v ∈ template.vars := by
      rw [hvars]
      exact List.mem_append_right _ List.mem_cons_self
    exact absurd ((rules_of_compileSites h.vars v hv).2 text hdefault) hfails.not_passes

/-- Whatever a template makes of a request, it returns values of the right types for texts that satisfy
the rules, or refuses the first text of the request that fails one, the variables of the host first. -/
theorem extract_reports {path : String} {host : Option String}
    (h : compile book path host = .ok template) (subject : String) :
    template.variableNames = namesOf template.path.tree template.hostTree?
      ∧ template.Reports subject (template.extract subject) := by
  obtain ⟨-, -, hcompiled⟩ := compile_eq_ok h
  refine ⟨hcompiled.variableNames_eq, ?_⟩
  rw [extract]
  cases hsearch : template.pattern.search subject with
  | none => exact .unmatched hsearch
  | some captures =>
    change template.Reports subject (readVariables captures template.vars)
    cases hread : readVariables captures template.vars with
    | unmatched => exact absurd hread (readVariables_ne_unmatched captures template.vars)
    | rejected name slug => exact .rejected hsearch (hcompiled.refuses_of_readVariables hread)
    | matched values => exact .matched hsearch (hcompiled.returns_of_readVariables hsearch hread)

/-- What a template with an integer and a default makes of an integer and of another text. -/
theorem exists_extract_integer : ∃ template,
    compile .standard "/a/:x(int)[/:y=7]" none = .ok template
      ∧ namesOf template.path.tree template.hostTree? = ["x", "y"]
      ∧ template.extract (Template.subject "h" "/a/5") = .matched [("x", .int 5), ("y", .string "7")]
      ∧ template.extract (Template.subject "h" "/a/b") = .rejected "x" "int" := by
  have hparse : Tree.parse "a/:x(int)[/:y=7]" = .ok (.sequence [.literal "a/",
      .variable "x" [⟨"int", []⟩] none, .optional [.literal "/", .variable "y" [] (some "7")]]) := by
    cbv
    exact eq_of_bind_read (by cbv)
  have hcompile := @compile_of_parse .standard "/a/:x(int)[/:y=7]" _ none
    [⟨"x", [⟨"int", []⟩], [.int], none, false, .int⟩, ⟨"y", [], [], some "7", true, .string⟩]
    hparse (by rintro side ⟨⟩) (by cbv) (by decide) (by decide +kernel)
  obtain ⟨-, -, hcompiled⟩ := compile_eq_ok hcompile
  have hparts : Segmented [.literal "a/", .variable "x" [⟨"int", []⟩] none,
      .optional [.literal "/", .variable "y" [] (some "7")]] :=
    .literal (.variable trivial (.optional rfl (.literal (.variable trivial .nil))))
  have hread := fun values uri hbuild =>
    @IsCompiled.captures_buildPath _ _ hcompiled rfl (by decide) hparts (by simp [Tree.parts]) values uri
      hbuild "h" (by decide)
  refine ⟨_, hcompile, rfl, ?_, ?_⟩
  · obtain ⟨captures, hextract, hget⟩ := hread [("x", .string "5")] "/a/5" rfl
    have hx : captures.get? "x" = some "5" := by
      rw [hget]
      rfl
    have hy : captures.get? "y" = none := by
      rw [hget]
      rfl
    have hpasses : Rule.int.passes "5" = true := by decide
    have hinteger : Value.coerce .int "5" = .int 5 := by decide
    have htext : Value.coerce .string "7" = .string "7" := rfl
    rw [hextract]
    simp [readVariables, Variable.text?, hx, hy, Variable.failedRule?, hpasses, hinteger, htext]
  · obtain ⟨captures, hextract, hget⟩ := hread [("x", .string "b")] "/a/b" rfl
    have hx : captures.get? "x" = some "b" := by
      rw [hget]
      rfl
    have hfails : Rule.int.passes "b" = false := by decide
    rw [hextract]
    simp [readVariables, Variable.text?, hx, Variable.failedRule?, hfails, Rule.slug]

/-- The integer and the default are returned, and the other text is refused by its rule. -/
theorem extract_reports_integer : ∃ template,
    compile .standard "/a/:x(int)[/:y=7]" none = .ok template
      ∧ template.variableNames = ["x", "y"]
      ∧ template.Reports (Template.subject "h" "/a/5") (.matched [("x", .int 5), ("y", .string "7")])
      ∧ template.Reports (Template.subject "h" "/a/b") (.rejected "x" "int") := by
  obtain ⟨template, hcompile, hnames, hmatched, hrejected⟩ := exists_extract_integer
  refine ⟨template, hcompile, ?_, ?_, ?_⟩
  · rw [← hnames]
    exact (extract_reports hcompile "").1
  · rw [← hmatched]
    exact (extract_reports hcompile _).2
  · rw [← hrejected]
    exact (extract_reports hcompile _).2

end Template

end UriRouting
