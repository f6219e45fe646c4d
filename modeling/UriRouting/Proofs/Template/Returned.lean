import UriRouting.Proofs.Template.Covers
import UriRouting.Proofs.Template.Grammatical
import UriRouting.Template.Generation
/-!
# The values that a match returns

The values of a match come from the texts of a derivation, and from defaults where a derivation has left
a variable out. Only a variable inside an optional segment can be left out.

* `Template.eq_of_readVariables` says what the values are;
* `Template.isSome_lookup_of_directVariables` says that a derivation has texts for the variables that are
  directly among some parts, and `Template.admits_of_derives` what these texts are like.
-/

namespace UriRouting

open UriRouting.Tree

/-- A text that a variable of a side can stand for. -/
def Side.Admits (side : Side) (text : List Char) : Prop :=
  text ≠ [] ∧ ∀ c ∈ text, side.forbids c = false

namespace Template

/-! ## Values and variables -/

/-- The values of a match, each in the type of its variable. -/
def valuesOf (captures : Pattern.Captures) (vars : List Variable) : List (String × Value) :=
  vars.filterMap fun v => (v.text? captures).map fun text => (v.name, Value.coerce v.type text)

theorem eq_of_readVariables {captures : Pattern.Captures} {vars : List Variable}
    {values : List (String × Value)} (h : readVariables captures vars = .matched values) :
    values = valuesOf captures vars := by
  fun_induction readVariables captures vars generalizing values with
  | case1 =>
    cases h
    rfl
  | case2 v rest htext ih =>
    rw [ih h, valuesOf, valuesOf, List.filterMap_cons_none (by rw [htext, Option.map_none])]
  | case3 => cases h
  | case4 v rest text htext hrules values' hrest ih =>
    cases h
    rw [ih hrest, valuesOf, valuesOf, List.filterMap_cons_some (by rw [htext, Option.map_some])]
  | case5 v rest text htext hrules hother ih => exact absurd h (hother values)

/-- Variables are read or refused. -/
theorem readVariables_ne_unmatched (captures : Pattern.Captures) (vars : List Variable) :
    readVariables captures vars ≠ .unmatched := by
  fun_induction readVariables captures vars <;> simp_all

/-- A value of a match is the text of its variable in the type of the variable. -/
theorem exists_of_lookup_valuesOf {captures : Pattern.Captures} {vars : List Variable} {name : String}
    {value : Value} (h : (valuesOf captures vars).lookup name = some value) :
    ∃ v ∈ vars, v.name = name ∧ ∃ text, v.text? captures = some text ∧ value = Value.coerce v.type text := by
  obtain ⟨before, after, hsplit, -⟩ := List.lookup_eq_some_iff.1 h
  have hmem : (name, value) ∈ valuesOf captures vars := by simp [hsplit]
  obtain ⟨v, hv, hvalue⟩ := List.mem_filterMap.1 hmem
  obtain ⟨text, htext, heq⟩ := Option.map_eq_some_iff.1 hvalue
  cases heq
  exact ⟨v, hv, rfl, text, htext, rfl⟩

/-- Values are listed in the order of their variables. -/
theorem names_valuesOf (captures : Pattern.Captures) (vars : List Variable) :
    ((valuesOf captures vars).map (·.1)).Sublist (vars.map (·.name)) := by
  induction vars with
  | nil => exact .slnil
  | cons v vars ih =>
    rw [valuesOf, List.filterMap_cons]
    cases v.text? captures with
    | none => exact ih.cons _
    | some text => exact ih.cons_cons _

/-- Each variable with a text has a value. -/
theorem lookup_valuesOf {captures : Pattern.Captures} {vars : List Variable}
    (hnames : (vars.map (·.name)).Nodup) {v : Variable} (hv : v ∈ vars) :
    (valuesOf captures vars).lookup v.name = (v.text? captures).map (Value.coerce v.type) := by
  induction vars with
  | nil => cases hv
  | cons first vars ih =>
    obtain ⟨hfresh, hnames⟩ := List.nodup_cons.1 hnames
    rw [valuesOf, List.filterMap_cons]
    rcases List.mem_cons.1 hv with rfl | hv
    · cases htext : v.text? captures with
      | some text => simp
      | none =>
        -- the name does not come again
        rw [Option.map_none, Option.map_none, lookup_eq_none_iff_notMem]
        exact fun hmem => hfresh ((names_valuesOf captures vars).subset hmem)
    · have hne : v.name ≠ first.name := fun heq => hfresh (List.mem_map.2 ⟨v, hv, heq⟩)
      cases first.text? captures with
      | none => exact ih hnames hv
      | some text =>
        rw [Option.map_some, List.lookup_cons, beq_eq_false_iff_ne.2 hne]
        exact ih hnames hv

/-- The variables of compiled sites stand at the sites. -/
theorem exists_site_of_compileSites {book : RuleBook} {seen : List String} {places : List Site}
    {vars : List Variable} (h : compileSites book seen places = .ok vars) :
    ∀ v ∈ vars, ⟨v.name, v.calls, v.default, v.optional⟩ ∈ places := by
  intro v hv
  obtain ⟨_, site, hsite, hmade⟩ := exists_compileSite_of_mem h hv
  obtain ⟨-, -, -, hparts⟩ := compileSite_eq_ok hmade
  rw [hparts]
  exact hsite

mutual

/-- Every variable inside an optional segment is optional. -/
theorem optional_of_mem_sites {tree : Tree} {site : Site} (h : site ∈ sites true tree) :
    site.optional = true := by
  cases tree with
  | sequence parts =>
    rw [sites] at h
    exact optional_of_mem_sitesOf h
  | literal own => cases h
  | «variable» name calls default =>
    rw [sites, List.mem_singleton] at h
    rw [h]
  | optional parts =>
    rw [sites] at h
    exact optional_of_mem_sitesOf h

theorem optional_of_mem_sitesOf {parts : List Tree} {site : Site} (h : site ∈ sitesOf true parts) :
    site.optional = true := by
  cases parts with
  | nil => cases h
  | cons part parts =>
    rw [sitesOf, List.mem_append] at h
    rcases h with h | h
    · exact optional_of_mem_sites h
    · exact optional_of_mem_sitesOf h

end

/-- The text that stands for a variable is written if the variable can stand for it, and else refused. -/
theorem variableText_of_text {side : Side} {values : Values} {name : String} {default : Option String}
    {text : String} (h : ((values.lookup name).map Value.text).or default = some text) :
    (side.Admits text.toList → variableText side values name default = .ok text)
      ∧ (¬ side.Admits text.toList →
        variableText side values name default = .error (.unfitValue name text)) := by
  have hfit : (text.isEmpty || text.toList.any side.forbids) = true ↔ ¬ side.Admits text.toList := by
    simp [Side.Admits, Decidable.or_iff_not_imp_left]
  constructor
  · intro hadmits
    simp [variableText, h, mt hfit.1 (not_not_intro hadmits)]
  · intro hrefuses
    simp [variableText, h, hfit.2 hrefuses]

/-- The text of a value is written if its variable can stand for it, and else refused. -/
theorem variableText_of_lookup {side : Side} {values : Values} {name : String} {default : Option String}
    {value : Value} (h : values.lookup name = some value) :
    (side.Admits value.text.toList → variableText side values name default = .ok value.text)
      ∧ (¬ side.Admits value.text.toList →
        variableText side values name default = .error (.unfitValue name value.text)) :=
  variableText_of_text (by rw [h]; rfl)

/-! ## Variables directly among parts -/

section

variable {side : Side} {depth : Nat} {part : Tree} {parts : List Tree} {text : List Char}
  {choices : List Nat} {captured : List (String × List Char)}

theorem directVariables_cons (part : Tree) (parts : List Tree) :
    directVariables (part :: parts) = directVariables [part] ++ directVariables parts := by
  rw [directVariables, directVariables, directVariables, ← List.filterMap_append, List.singleton_append]

/-- A variable that is not optional is directly among the parts of a template. -/
theorem mem_directVariables_of_site (hparts : ∀ part ∈ parts, Grammatical depth part) {site : Site}
    (h : site ∈ sitesOf false parts) (hsite : site.optional = false) :
    site.name ∈ directVariables parts := by
  induction parts with
  | nil => cases h
  | cons part parts ih =>
    obtain ⟨hpart, hparts⟩ := List.forall_mem_cons.1 hparts
    rw [directVariables_cons, List.mem_append]
    rw [sitesOf, List.mem_append] at h
    rcases h with h | h
    · refine Or.inl ?_
      cases hpart with
      | literal => cases h
      | «variable» =>
        rw [sites, List.mem_singleton] at h
        rw [h]
        exact List.mem_singleton.2 rfl
      | optional =>
        rw [sites] at h
        rw [optional_of_mem_sitesOf h] at hsite
        cases hsite
    · exact Or.inr (ih hparts h)

theorem mem_variableNamesOf_of_directVariables {name : String} (h : name ∈ directVariables parts) :
    name ∈ variableNamesOf parts := by
  induction parts with
  | nil => cases h
  | cons part parts ih =>
    rw [directVariables_cons, List.mem_append] at h
    rw [variableNamesOf, List.mem_append]
    rcases h with h | h
    · refine Or.inl ?_
      cases part with
      | «variable» => exact h
      | _ => cases h
    · exact Or.inr (ih h)

/-- A derivation over some parts has texts for the variables that are directly among them. -/
theorem isSome_lookup_of_directVariables (h : DerivesAll side parts text choices captured) :
    ∀ name ∈ directVariables parts, (captured.lookup name).isSome = true := by
  induction parts generalizing text choices captured with
  | nil => exact List.forall_mem_nil _
  | cons part parts ih =>
    cases h with
    | cons hpart hparts =>
      intro name hname
      rw [directVariables_cons, List.mem_append] at hname
      rw [List.lookup_append, Option.isSome_or, Bool.or_eq_true]
      rcases hname with hname | hname
      · refine Or.inl ?_
        cases hpart with
        | «variable» =>
          obtain rfl := List.mem_singleton.1 hname
          simp
        | _ => cases hname
      · exact Or.inr (ih hparts name hname)

end

/-! ## Captured texts -/

mutual

/-- The texts that a derivation has are texts that variables can stand for. -/
theorem admits_of_derives {side : Side} {tree : Tree} {text : List Char} {choices : List Nat}
    {captured : List (String × List Char)} (h : Tree.Derives side tree text choices captured) :
    ∀ entry ∈ captured, side.Admits entry.2 := by
  cases h with
  | sequence h => exact admits_of_derivesAll h
  | literal => exact List.forall_mem_nil _
  | «variable» hne h => exact List.forall_mem_singleton.2 ⟨hne, h⟩
  | taken h => exact admits_of_derivesAll h
  | skipped => exact List.forall_mem_nil _

theorem admits_of_derivesAll {side : Side} {parts : List Tree} {text : List Char}
    {choices : List Nat} {captured : List (String × List Char)}
    (h : DerivesAll side parts text choices captured) :
    ∀ entry ∈ captured, side.Admits entry.2 := by
  cases h with
  | nil => exact List.forall_mem_nil _
  | cons h h' => exact List.forall_mem_append.2 ⟨admits_of_derives h, admits_of_derivesAll h'⟩

end

theorem DerivesHost.admits {host : Option Tree} {text : List Char} {choices : List Nat}
    {captured : List (String × List Char)} (h : DerivesHost host text choices captured) :
    ∀ entry ∈ captured, Side.host.Admits entry.2 := by
  cases h with
  | any => exact List.forall_mem_nil _
  | own h => exact admits_of_derives h

theorem lookup_eq_none_of_sublist {captured : List (String × List Char)} {names : List String}
    (h : List.Sublist (captured.map (·.1)) names) {name : String} (hname : name ∉ names) :
    captured.lookup name = none := by
  rw [lookup_eq_none_iff_notMem]
  exact fun hmem => hname (h.subset hmem)

/-! ## Defaults -/

/-- A default is a text that a variable of a path can stand for. -/
theorem IsDefault.admits {text : List Char} (h : IsDefault text) : Side.path.Admits text := by
  refine ⟨h.ne_nil, ?_⟩
  intro c hc
  have hstays := h.stays c hc
  by_contra hforbids
  obtain rfl : c = '/' := by simpa [Side.forbids] using hforbids
  obtain ⟨d, ds, rfl⟩ := List.exists_cons_of_ne_nil h.ne_nil
  cases hd : endsDefault d with
  | true =>
    rw [defaultStop_of_ends hd] at hstays
    cases hstays
  | false =>
    rw [defaultStop_of_stays hd] at hstays
    cases hstays

theorem exists_mem_of_mem_sitesOf {optional : Bool} {parts : List Tree} {site : Site}
    (h : site ∈ sitesOf optional parts) : ∃ part ∈ parts, site ∈ sites optional part := by
  induction parts with
  | nil => cases h
  | cons part parts ih =>
    rw [sitesOf, List.mem_append] at h
    rcases h with h | h
    · exact ⟨part, List.mem_cons_self, h⟩
    · obtain ⟨other, hother, h⟩ := ih h
      exact ⟨other, List.mem_cons_of_mem _ hother, h⟩

/-- The defaults in a template are defaults. -/
theorem isDefault_of_mem_sites {depth : Nat} {tree : Tree} (htree : Grammatical depth tree)
    {optional : Bool} {site : Site} (h : site ∈ sites optional tree) :
    ∀ text ∈ site.default, IsDefault text.toList := by
  induction htree generalizing optional with
  | literal => cases h
  | «variable» hname hcalls hdefault =>
    rw [sites, List.mem_singleton] at h
    rw [h]
    exact hdefault
  | optional _ _ _ ih =>
    rw [sites] at h
    obtain ⟨part, hpart, h⟩ := exists_mem_of_mem_sitesOf h
    exact ih part hpart h

theorem isDefault_of_parse {source : String} {tree : Tree} (hparse : Tree.parse source = .ok tree)
    {site : Site} (h : site ∈ sites false tree) : ∀ text ∈ site.default, IsDefault text.toList := by
  obtain ⟨parts, rfl, hparts⟩ := grammatical_of_parse hparse
  rw [sites] at h
  obtain ⟨part, hpart, h⟩ := exists_mem_of_mem_sitesOf h
  exact isDefault_of_mem_sites (hparts.part part hpart) h

/-- The defaults of the variables of a template are defaults. -/
theorem IsRead.isDefault {book : RuleBook} {template : Template} (h : template.IsRead book)
    {v : Variable} (hv : v ∈ template.vars) {text : String} (hdefault : v.default = some text) :
    IsDefault text.toList := by
  have hsite := exists_site_of_compileSites h.vars v hv
  rw [allSites, List.mem_append] at hsite
  rcases hsite with hsite | hsite
  · cases hside : template.host with
    | none => simp [hside] at hsite
    | some side =>
      rw [hside] at hsite
      exact isDefault_of_parse (h.host side hside) hsite text hdefault
  · exact isDefault_of_parse h.path hsite text hdefault

/-! ## Variables that are not left out -/

section

variable {book : RuleBook} {template : Template} {text : List Char}
  {captured : List (String × List Char)}

/-- A tree that was read derives texts with a text for each variable that is not optional. -/
theorem isSome_lookup_of_site {side : Side} {source : String} {tree : Tree}
    (hparse : Tree.parse source = .ok tree) {choices : List Nat}
    (h : Tree.Derives side tree text choices captured) {site : Site} (hmem : site ∈ sites false tree)
    (hsite : site.optional = false) : (captured.lookup site.name).isSome = true := by
  obtain ⟨parts, rfl, hparts⟩ := grammatical_of_parse hparse
  rw [sites] at hmem
  cases h with
  | sequence h =>
    exact isSome_lookup_of_directVariables h _ (mem_directVariables_of_site hparts.part hmem hsite)

/-- A cover has a text for each variable that is not optional. -/
theorem Covers.isSome_lookup (h : template.IsRead book) (hcovers : template.Covers text captured)
    {v : Variable} (hv : v ∈ template.vars) (hoptional : v.optional = false) :
    (captured.lookup v.name).isSome = true := by
  have hsite := exists_site_of_compileSites h.vars v hv
  rw [allSites, List.mem_append] at hsite
  cases hcovers with
  | intro _ hhost hpath =>
    rw [List.lookup_append, Option.isSome_or, Bool.or_eq_true]
    rcases hsite with hsite | hsite
    · refine Or.inl ?_
      rw [hostTree?] at hhost
      cases hside : template.host with
      | none => simp [hside] at hsite
      | some side =>
        rw [hside] at hsite hhost
        cases hhost with
        | own hhost => exact isSome_lookup_of_site (h.host side hside) hhost hsite hoptional
    · exact Or.inr (isSome_lookup_of_site h.path hpath hsite hoptional)

/-- What a match returns are the values of a cover. -/
theorem IsCompiled.exists_covers_of_extract (h : template.IsCompiled book) {subject : String}
    {values : List (String × Value)} (hmatched : template.extract subject = .matched values) :
    ∃ captures captured, template.Covers subject.toList captured
      ∧ (∀ name, captures.get? name = (captured.lookup name).map String.ofList)
      ∧ values = valuesOf captures template.vars := by
  rw [extract] at hmatched
  cases hsearch : template.pattern.search subject with
  | none =>
    rw [hsearch] at hmatched
    cases hmatched
  | some captures =>
    rw [hsearch] at hmatched
    obtain ⟨captured, hcovers, hget⟩ := h.covers_of_search hsearch
    exact ⟨captures, captured, hcovers, hget, eq_of_readVariables hmatched⟩

/-- The names of the variables come once. -/
theorem IsRead.nodup_vars (h : template.IsRead book) : (template.vars.map (·.name)).Nodup := by
  have hnames := h.nodup_names
  rwa [← h.variableNames_eq] at hnames

end

end Template

end UriRouting
