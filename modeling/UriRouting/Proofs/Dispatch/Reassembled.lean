import UriRouting.Proofs.Dispatch.BuildMatch
import UriRouting.Proofs.Template.Returned
/-!
# Reassembling the path of a match

The values of a match are the texts of a derivation, where all variables are texts and no default stands
in for what was left out. An optional segment with a variable of its own then has its values if and only
if it was there, so writing the path from the values goes through the derivation again.

Main statements: `Template.render_of_derives` and `Template.buildPath_extract`.
-/

namespace UriRouting

open UriRouting.Tree

namespace Tree

mutual

/-- Every optional segment has a variable directly inside it. -/
def OptionalsNamed : Tree → Prop
  | .sequence parts => AllOptionalsNamed parts
  | .literal _ => True
  | .variable _ _ _ => True
  | .optional parts => Template.directVariables parts ≠ [] ∧ AllOptionalsNamed parts

/-- Every optional segment among some parts has a variable directly inside it. -/
def AllOptionalsNamed : List Tree → Prop
  | [] => True
  | part :: parts => OptionalsNamed part ∧ AllOptionalsNamed parts

end

end Tree

namespace Template

/-! ## The path of a request -/

/-- Values that give the texts of a derivation. -/
def Spells (values : Values) (captured : List (String × List Char)) (names : List String) : Prop :=
  ∀ name ∈ names, values.lookup name = (captured.lookup name).map fun own => .string (String.ofList own)

section

variable {values : Values} {captured captured' : List (String × List Char)} {names names' : List String}

/-- Values that give the texts of two derivations one after the other give those of each. -/
theorem Spells.split (h : Spells values (captured ++ captured') (names ++ names'))
    (hnodup : (names ++ names').Nodup) (hleft : List.Sublist (captured.map (·.1)) names)
    (hright : List.Sublist (captured'.map (·.1)) names') :
    Spells values captured names ∧ Spells values captured' names' := by
  have hdisjoint := List.disjoint_of_nodup_append hnodup
  constructor
  · intro name hname
    have hnone := lookup_eq_none_of_sublist hright (hdisjoint hname)
    rw [h name (List.mem_append_left _ hname), List.lookup_append, hnone, Option.or_none]
  · intro name hname
    have hnone := lookup_eq_none_of_sublist hleft fun hmem => hdisjoint hmem hname
    rw [h name (List.mem_append_right _ hname), List.lookup_append, hnone, Option.none_or]

end

/-- An optional segment is written again if and only if it was there. -/
theorem isSupplied_of_derivesAll {values : Values} {parts : List Tree} {text : List Char}
    {choices : List Nat} {captured : List (String × List Char)} (hne : directVariables parts ≠ [])
    (h : DerivesAll .path parts text choices captured)
    (hvalues : Spells values captured (variableNamesOf parts)) : isSupplied values parts = true := by
  rw [isSupplied, Bool.and_eq_true, List.all_eq_true]
  refine ⟨by simpa using hne, ?_⟩
  intro name hname
  rw [hvalues name (mem_variableNamesOf_of_directVariables hname), Option.isSome_map]
  exact isSome_lookup_of_directVariables h name hname

theorem isSupplied_of_skipped {values : Values} {parts : List Tree} (hne : directVariables parts ≠ [])
    (hvalues : Spells values [] (variableNamesOf parts)) : isSupplied values parts = false := by
  obtain ⟨name, names, hnames⟩ := List.exists_cons_of_ne_nil hne
  have hname : name ∈ directVariables parts := by
    rw [hnames]
    exact List.mem_cons_self
  have hnone : values.lookup name = none := hvalues name (mem_variableNamesOf_of_directVariables hname)
  simp [isSupplied, hnames, hnone]

mutual

/-- What was derived from a tree is written again from the texts of the derivation. -/
theorem render_of_derives {values : Values} (tree : Tree) {text : List Char} {choices : List Nat}
    {captured : List (String × List Char)} (h : Tree.Derives .path tree text choices captured)
    (hnamed : tree.OptionalsNamed) (hnodup : tree.variableNames.Nodup)
    (hvalues : Spells values captured tree.variableNames) :
    render .path values tree = .ok (String.ofList text) := by
  cases tree with
  | sequence parts =>
    rw [OptionalsNamed] at hnamed
    rw [Tree.variableNames] at hnodup hvalues
    cases h with
    | sequence h =>
      rw [render]
      exact renderAll_of_derivesAll parts h hnamed hnodup hvalues
  | literal own =>
    cases h with
    | literal hown =>
      have heq : List.Forall₂ (· = ·) own.toList text :=
        hown.imp fun c d hcd => by simpa [Side.sameChar] using hcd
      rw [List.forall₂_eq_eq_eq] at heq
      rw [render, ← heq, String.ofList_toList]
  | «variable» name calls default =>
    cases h with
    | «variable» hne hown =>
      have hlookup : values.lookup name = some (.string (String.ofList text)) := by
        simpa using hvalues name List.mem_cons_self
      have hadmits : Side.path.Admits (Value.string (String.ofList text)).text.toList := by
        rw [Value.text, String.toList_ofList]
        exact ⟨hne, hown⟩
      rw [render]
      exact (variableText_of_lookup hlookup).1 hadmits
  | optional parts =>
    obtain ⟨hne, hnamed⟩ := hnamed
    rw [Tree.variableNames] at hnodup hvalues
    rw [render]
    cases h with
    | taken h =>
      rw [if_pos (isSupplied_of_derivesAll hne h hvalues)]
      exact renderAll_of_derivesAll parts h hnamed hnodup hvalues
    | skipped =>
      rw [isSupplied_of_skipped hne hvalues]
      rfl

/-- What was derived from some parts is written again from the texts of the derivation. -/
theorem renderAll_of_derivesAll {values : Values} (parts : List Tree) {text : List Char}
    {choices : List Nat} {captured : List (String × List Char)}
    (h : DerivesAll .path parts text choices captured) (hnamed : AllOptionalsNamed parts)
    (hnodup : (variableNamesOf parts).Nodup)
    (hvalues : Spells values captured (variableNamesOf parts)) :
    renderAll .path values parts = .ok (String.ofList text) := by
  cases parts with
  | nil =>
    cases h
    rfl
  | cons part parts =>
    rw [variableNamesOf] at hnodup hvalues
    obtain ⟨hnamed, hnamed'⟩ := hnamed
    cases h with
    | cons h h' =>
      obtain ⟨hvalues, hvalues'⟩ := hvalues.split hnodup (names_of_derives h) (names_of_derivesAll h')
      rw [renderAll, render_of_derives part h hnamed (List.nodup_append.1 hnodup).1 hvalues,
        renderAll_of_derivesAll parts h' hnamed' (List.nodup_append.1 hnodup).2.1 hvalues']
      simp only [Except.map, String.ofList_append]

end

/-- The values of a match are the texts of a cover, if they are all texts and no default stands in for a
variable that was left out. -/
theorem IsCompiled.spells_valuesOf {book : RuleBook} {template : Template}
    (h : template.IsCompiled book) (htype : ∀ v ∈ template.vars, v.type ≠ .int ∧ v.type ≠ .float)
    (hdefault : ∀ v ∈ template.vars, v.optional = true → v.default = none)
    {text : List Char} {captured : List (String × List Char)} (hcovers : template.Covers text captured)
    {captures : Pattern.Captures}
    (hget : ∀ name, captures.get? name = (captured.lookup name).map String.ofList) :
    Spells (valuesOf captures template.vars) captured template.variableNames := by
  intro name hname
  obtain ⟨v, hv, rfl⟩ := List.mem_map.1 hname
  have hstring : v.type = .string := by
    cases htypes : v.type with
    | string => rfl
    | int => exact absurd htypes (htype v hv).1
    | float => exact absurd htypes (htype v hv).2
  rw [lookup_valuesOf h.nodup_vars hv, Variable.text?, hget, hstring]
  cases hlookup : captured.lookup v.name with
  | some own => simp [Value.coerce]
  | none =>
    -- only an optional variable can be left out
    cases hoptional : v.optional with
    | true =>
      rw [hdefault v hv hoptional]
      rfl
    | false =>
      have hsome := hcovers.isSome_lookup h.toIsRead hv hoptional
      rw [hlookup] at hsome
      cases hsome

/-- Without a host in the template, a request is covered by a derivation of its path. -/
theorem Covers.derives_path {template : Template} (hnone : template.hostTree? = none)
    {reqHost reqPath : List Char} (hreq : separator ∉ reqHost) {captured : List (String × List Char)}
    (h : template.Covers (reqHost ++ separator :: reqPath) captured) :
    ∃ choices, Tree.Derives .path template.path.tree reqPath choices captured := by
  generalize htext : reqHost ++ separator :: reqPath = text at h
  cases h with
  | intro hfree hhost hpath =>
    obtain ⟨rfl, rfl⟩ := eq_of_append_separator hreq (hfree hnone) htext
    rw [hnone] at hhost
    cases hhost
    exact ⟨_, hpath⟩

/-- A path whose variables are all texts is generated again from the values of its match: each optional
segment is there if and only if it was. -/
theorem buildPath_extract {book : RuleBook} {path : String} {template : Template}
    (h : compile book path none = .ok template)
    (htype : ∀ v ∈ template.vars, v.type ≠ .int ∧ v.type ≠ .float)
    (hnamed : template.path.tree.OptionalsNamed)
    (hdefault : ∀ v ∈ template.vars, v.optional = true → v.default = none) {reqHost reqPath : String}
    (hreq : separator ∉ reqHost.toList) {values : List (String × Value)}
    (hmatched : template.extract (subject reqHost reqPath) = .matched values) :
    template.buildPath values = .ok ("/" ++ stripSlashes reqPath) := by
  obtain ⟨-, hhostText, hcompiled⟩ := compile_eq_ok h
  have hnone : template.hostTree? = none := by
    rw [Option.map_eq_none_iff] at hhostText
    rw [hostTree?, hhostText, Option.map_none]
  obtain ⟨captures, captured, hcovers, hget, rfl⟩ := hcompiled.exists_covers_of_extract hmatched
  have hspells := hcompiled.spells_valuesOf htype hdefault hcovers hget
  rw [toList_subject] at hcovers
  obtain ⟨choices, hderives⟩ := hcovers.derives_path hnone hreq
  obtain ⟨parts, htree, -⟩ := grammatical_of_parse hcompiled.path
  have hnames : template.variableNames = variableNamesOf parts := by
    rw [hcompiled.variableNames_eq, namesOf, hnone, htree]
    rfl
  have hnodup : (variableNamesOf parts).Nodup := hnames ▸ hcompiled.nodup_vars
  rw [htree] at hderives hnamed
  cases hderives with
  | sequence hderives =>
    have hrender := renderAll_of_derivesAll parts hderives hnamed hnodup (hnames ▸ hspells)
    rw [buildPath, htree, Tree.parts, hrender, Except.map, String.ofList_toList]

/-- The match of a path with an optional segment. -/
theorem exists_extract_segments : ∃ template,
    compile .standard "/a/:x[/:y]" none = .ok template
      ∧ template.path.tree = .sequence [.literal "a/", .variable "x" [] none,
        .optional [.literal "/", .variable "y" [] none]]
      ∧ template.vars = [⟨"x", [], [], none, false, .string⟩, ⟨"y", [], [], none, true, .string⟩]
      ∧ template.extract (subject "h" "//a/1/2") = .matched [("x", .string "1"), ("y", .string "2")] := by
  have hcompile := @compile_of_parse .standard "/a/:x[/:y]"
    (.sequence [.literal "a/", .variable "x" [] none, .optional [.literal "/", .variable "y" [] none]])
    none [⟨"x", [], [], none, false, .string⟩, ⟨"y", [], [], none, true, .string⟩]
    (by cbv) (by rintro side ⟨⟩) (by cbv) (by decide) (by decide +kernel)
  refine ⟨_, hcompile, rfl, rfl, ?_⟩
  obtain ⟨-, -, hcompiled⟩ := compile_eq_ok hcompile
  have hparts : Segmented [.literal "a/", .variable "x" [] none,
      .optional [.literal "/", .variable "y" [] none]] :=
    .literal (.variable trivial (.optional rfl (.literal (.variable trivial .nil))))
  obtain ⟨captures, hextract, hget⟩ := hcompiled.captures_buildPath rfl (by decide) hparts
    (by simp [Tree.parts]) (show Template.buildPath _ [("x", .string "1"), ("y", .string "2")] = _ from rfl)
    (show separator ∉ "h".toList by decide)
  have hread := hcompiled.readVariables_of_captures hget (by simp)
  exact hextract.trans hread

theorem buildPath_extract_segments : ∃ template,
    compile .standard "/a/:x[/:y]" none = .ok template
      ∧ template.extract (subject "h" "//a/1/2") = .matched [("x", .string "1"), ("y", .string "2")]
      ∧ template.buildPath [("x", .string "1"), ("y", .string "2")] = .ok "/a/1/2" := by
  obtain ⟨template, hcompile, htree, hvars, hextract⟩ := exists_extract_segments
  refine ⟨template, hcompile, hextract, ?_⟩
  exact buildPath_extract hcompile (by simp [hvars])
    (by simp [htree, OptionalsNamed, AllOptionalsNamed, directVariables]) (by simp [hvars]) (by decide)
    hextract

end Template

end UriRouting
