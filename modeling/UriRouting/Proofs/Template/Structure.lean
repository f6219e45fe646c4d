import Mathlib
import UriRouting.Proofs.Template.Limits
import UriRouting.Proofs.Template.Resolved
import UriRouting.Proofs.Template.Written
/-!
# The structure of a template's pattern

No text in a template changes the structure of its pattern. Trees that were read, with variables of
different names, have a pattern whose text is read back as the pattern meant: start, host,
separator, path and end, with one item for each character of a literal, one named group for each
variable and one group for each optional segment. So the named groups are the variables in order,
and nothing but its depth and its size can keep the text from being a pattern.

Main statement: `read_patternSource`.
-/

namespace UriRouting

open Pattern

namespace Pattern.Node

theorem groupNamesOf_append (items items' : List Node) :
    groupNamesOf (items ++ items') = groupNamesOf items ++ groupNamesOf items' := by
  induction items with
  | nil => rfl
  | cons item items ih => rw [List.cons_append, groupNamesOf, groupNamesOf, ih, List.append_assoc]

/-- Items put into a sequence keep their groups. -/
theorem groupNames_ofItems (items : List Node) :
    (ofItems items).groupNames = groupNamesOf items := by
  fun_cases ofItems items with
  | case1 => rfl
  | case2 item => rw [groupNamesOf, groupNamesOf, List.append_nil]
  | case3 => rw [groupNames]

end Pattern.Node

namespace Tree

open Pattern.Node

/-- Characters have no groups. -/
theorem groupNamesOf_map_char (own : List Char) (anyCase : Bool) :
    groupNamesOf (own.map fun c => .char c anyCase) = [] := by
  induction own with
  | nil => rfl
  | cons c own ih =>
    rw [List.map_cons, groupNamesOf, ih]
    rfl

mutual

/-- The named groups of a tree's items are its variables, in order. -/
theorem groupNamesOf_items (side : Side) (tree : Tree) :
    groupNamesOf (tree.items side) = tree.variableNames := by
  cases tree with
  | sequence parts =>
    rw [items, variableNames]
    exact groupNamesOf_itemsOf side parts
  | literal own =>
    rw [items, variableNames]
    exact groupNamesOf_map_char own.toList side.anyCase
  | «variable» name calls default => rfl
  | optional parts =>
    rw [items, variableNames, ← groupNamesOf_itemsOf side parts]
    simp only [groupNamesOf, groupNames, GroupKind.name?, Option.toList_none, List.nil_append,
      List.append_nil, groupNames_ofItems]

theorem groupNamesOf_itemsOf (side : Side) (parts : List Tree) :
    groupNamesOf (itemsOf side parts) = variableNamesOf parts := by
  cases parts with
  | nil => rfl
  | cons part parts =>
    rw [itemsOf, variableNamesOf, groupNamesOf_append, groupNamesOf_items, groupNamesOf_itemsOf]

end

end Tree

namespace Template

open Pattern.Node

theorem groupNames_hostItem (host : Option Tree) :
    (hostItem host).groupNames = host.elim [] Tree.variableNames := by
  cases host with
  | none => rfl
  | some host =>
    rw [hostItem, groupNames, groupNames_ofItems, Tree.groupNamesOf_items]
    rfl

/-- The named groups of a template's pattern are its variables, those of the host first. -/
theorem groupNames_patternNode (path : Tree) (host : Option Tree) :
    (patternNode path host).groupNames = namesOf path host := by
  rw [patternNode, groupNames, namesOf, List.cons_append, List.cons_append, List.cons_append,
    groupNamesOf, groupNamesOf, groupNamesOf, groupNamesOf_append, groupNames_hostItem,
    Tree.groupNamesOf_items]
  simp [groupNames, groupNamesOf]

/-- What is read has names that are names. -/
theorem isName_of_parse {text : String} {path : Tree} {host : Option TemplateSide}
    (hpath : Tree.parse text = .ok path)
    (hhost : ∀ side ∈ host, Tree.parse side.text = .ok side.tree) :
    ∀ name ∈ namesOf path (host.map (·.tree)), IsName name.toList := by
  rw [namesOf, List.forall_mem_append]
  refine ⟨?_, isName_of_made (made_of_parse hpath)⟩
  cases host with
  | none => simp
  | some side => exact isName_of_made (made_of_parse (hhost side rfl))

/-! ## Long literals -/

/-- A run of letters. -/
def letterRun (n : Nat) : String := String.ofList (List.replicate n 'a')

/-- A run of letters is read as one literal. -/
theorem parse_letterRun {n : Nat} (h : 0 < n) :
    Tree.parse (letterRun n) = .ok (.sequence [.literal (letterRun n)]) := by
  refine parse_literal ?_ ?_
  · rw [letterRun, String.toList_ofList]
    simpa using Nat.ne_of_gt h
  · intro c hc hstructural
    rw [letterRun, String.toList_ofList] at hc
    rw [List.eq_of_mem_replicate hc] at hstructural
    exact absurd hstructural (by decide)

theorem stripSlashes_letterRun (n : Nat) : stripSlashes (letterRun n) = letterRun n := by
  refine stripSlashes_eq_self ?_
  rw [letterRun, String.toList_ofList]
  cases n <;> simp [List.replicate_succ]

theorem sitesIn_literal (own : String) : sitesIn (.sequence [.literal own]) none = [] := by
  simp [sitesIn, sites, sitesOf]

/-- The pattern of a run of letters is too big from some length on. -/
theorem maxSize_lt_letterRun {n : Nat} (h : Pattern.maxSize < stateSize * n) :
    Pattern.maxSize < (patternNode (.sequence [.literal (letterRun n)]) none).compiledSize := by
  refine maxSize_lt_compiledSize_literal ?_
  rwa [letterRun, String.toList_ofList, List.length_replicate]

section

variable {book : RuleBook} {raw : String} {path : Tree} {host : Option TemplateSide}

/-- Where the variables are made, the limits of patterns decide. -/
theorem compile_eq_of_vars (hpath : Tree.parse (stripSlashes raw) = .ok path)
    (hhost : ∀ side ∈ host, Tree.parse side.text = .ok side.tree) {vars : List Variable}
    (hvars : compileSites book [] (sitesIn path (host.map (·.tree))) = .ok vars) :
    compile book raw (host.map (·.text))
      = if Pattern.maxNesting < (patternNode path (host.map (·.tree))).nesting then
          .error (.pattern .tooDeep)
        else if Pattern.maxSize < (patternNode path (host.map (·.tree))).compiledSize then
          .error (.pattern .tooBig)
        else .ok ⟨⟨stripSlashes raw, path⟩, host, vars,
          ⟨patternSource path (host.map (·.tree)), patternNode path (host.map (·.tree))⟩⟩ := by
  have hnodup : (namesOf path (host.map (·.tree))).Nodup := by
    rw [← map_name_sitesIn]
    exact (names_of_compileSites hvars).2.1
  rw [compile_eq_of_parse hpath hhost, hvars]
  simp only [ofSource_patternSource (isName_of_parse hpath hhost) hnodup]
  by_cases hdeep : Pattern.maxNesting < (patternNode path (host.map (·.tree))).nesting
  · simp only [if_pos hdeep]
  by_cases hbig : Pattern.maxSize < (patternNode path (host.map (·.tree))).compiledSize
  · simp only [if_neg hdeep, if_pos hbig]
  · simp only [if_neg hdeep, if_neg hbig]

/-- A template of trees that were read has the pattern meant, and its variables in order. -/
theorem pattern_of_compile (hpath : Tree.parse (stripSlashes raw) = .ok path)
    (hhost : ∀ side ∈ host, Tree.parse side.text = .ok side.tree) {template : Template}
    (h : compile book raw (host.map (·.text)) = .ok template) :
    template.pattern
        = ⟨patternSource path (host.map (·.tree)), patternNode path (host.map (·.tree))⟩
      ∧ template.variableNames = namesOf path (host.map (·.tree)) := by
  cases hvars : compileSites book [] (sitesIn path (host.map (·.tree))) with
  | error e =>
    rw [compile_eq_of_parse hpath hhost, hvars] at h
    cases h
  | ok vars =>
    rw [compile_eq_of_vars hpath hhost hvars] at h
    split at h
    · cases h
    split at h
    · cases h
    · cases h
      refine ⟨rfl, ?_⟩
      rw [Template.variableNames, (names_of_compileSites hvars).1, map_name_sitesIn]

/-- A template of trees that were read, whose rules can be made, is only refused for the depth or the
size of its pattern or for a default. -/
theorem exists_of_compile_eq_error (hpath : Tree.parse (stripSlashes raw) = .ok path)
    (hhost : ∀ side ∈ host, Tree.parse side.text = .ok side.tree)
    (hnodup : (namesOf path (host.map (·.tree))).Nodup)
    (hrules : ∀ site ∈ sitesIn path (host.map (·.tree)), Resolves book site.calls)
    {e : DeclarationError} (h : compile book raw (host.map (·.text)) = .error e) :
    (Pattern.maxNesting < (patternNode path (host.map (·.tree))).nesting ∧ e = .pattern .tooDeep)
      ∨ ((patternNode path (host.map (·.tree))).nesting ≤ Pattern.maxNesting
        ∧ Pattern.maxSize < (patternNode path (host.map (·.tree))).compiledSize ∧ e = .pattern .tooBig)
      ∨ ∃ site ∈ sitesIn path (host.map (·.tree)), ∃ default ∈ site.default,
          ¬ Satisfies book site.calls default ∧ e = .rejectedDefault site.name default := by
  cases hvars : compileSites book [] (sitesIn path (host.map (·.tree))) with
  | error fault =>
    rw [compile_eq_of_parse hpath hhost, hvars] at h
    cases h
    have hdistinct : ((sitesIn path (host.map (·.tree))).map (·.name)).Nodup := by
      rwa [map_name_sitesIn]
    obtain ⟨site, hmem, ⟨call, hcall, fault, hfault, -⟩ | hdefault⟩ :=
      exists_of_compileSites_eq_error hvars hdistinct (by simp)
    · obtain ⟨rule, hrule⟩ := hrules site hmem call hcall
      rw [hfault] at hrule
      cases hrule
    · exact Or.inr (Or.inr ⟨site, hmem, hdefault⟩)
  | ok vars =>
    rw [compile_eq_of_vars hpath hhost hvars] at h
    split at h
    · rename_i hdeep
      cases h
      exact Or.inl ⟨hdeep, rfl⟩
    rename_i hflat
    split at h
    · rename_i hbig
      cases h
      exact Or.inr (Or.inl ⟨Nat.le_of_not_lt hflat, hbig, rfl⟩)
    · cases h

end

/-- The text of the pattern of trees that were read is read as the pattern meant, and its named
groups are the variables in order. It makes a pattern unless it is nested too deeply or too big. So a
template of these trees whose rules can be made has this pattern, or else its pattern is beyond one of
these limits or a default does not satisfy the rules of its variable. -/
theorem read_patternSource {text : String} {path : Tree} {host : Option TemplateSide}
    (hpath : Tree.parse text = .ok path)
    (hhost : ∀ side ∈ host, Tree.parse side.text = .ok side.tree)
    (hnodup : (namesOf path (host.map (·.tree))).Nodup) :
    let source := patternSource path (host.map (·.tree))
    let node := patternNode path (host.map (·.tree))
    Progress.finish {} source.toList = .ok node
    ∧ node.groupNames = namesOf path (host.map (·.tree))
    ∧ Pattern.ofSource source
        = (if Pattern.maxNesting < node.nesting then .error .tooDeep
          else if Pattern.maxSize < node.compiledSize then .error .tooBig
          else .ok ⟨source, node⟩)
    ∧ ∀ book raw, stripSlashes raw = text →
        (∀ site ∈ sitesIn path (host.map (·.tree)), Resolves book site.calls) →
        (∀ template, compile book raw (host.map (·.text)) = .ok template →
          template.pattern = ⟨source, node⟩ ∧ template.variableNames = node.groupNames)
        ∧ ∀ e, compile book raw (host.map (·.text)) = .error e →
            (Pattern.maxNesting < node.nesting ∧ e = .pattern .tooDeep)
            ∨ (node.nesting ≤ Pattern.maxNesting ∧ Pattern.maxSize < node.compiledSize
              ∧ e = .pattern .tooBig)
            ∨ ∃ site ∈ sitesIn path (host.map (·.tree)), ∃ default ∈ site.default,
                ¬ Satisfies book site.calls default ∧ e = .rejectedDefault site.name default := by
  intro source node
  have hnames := isName_of_parse hpath hhost
  have hgroups : node.groupNames = namesOf path (host.map (·.tree)) := groupNames_patternNode _ _
  refine ⟨finish_patternSource hnames hnodup, hgroups, ofSource_patternSource hnames hnodup, ?_⟩
  rintro book raw rfl hrules
  refine ⟨fun template htemplate => ?_, fun e => exists_of_compile_eq_error hpath hhost hnodup hrules⟩
  rw [hgroups]
  exact pattern_of_compile hpath hhost htemplate

/-- The size is a limit of its own: a run of letters has a pattern of few levels and no variables, but it can
be too long for one. -/
theorem ofSource_patternSource_letterRun :
    ∃ path, Tree.parse (letterRun 500000) = .ok path ∧ sitesIn path none = []
      ∧ (patternNode path none).groupNames = []
      ∧ (patternNode path none).nesting ≤ Pattern.maxNesting
      ∧ Pattern.ofSource (patternSource path none) = .error .tooBig := by
  have hsites := sitesIn_literal (letterRun 500000)
  have hnames : namesOf (.sequence [.literal (letterRun 500000)]) none = [] := by
    rw [← map_name_sitesIn, hsites, List.map_nil]
  have hdepth := nesting_literal_le (letterRun 500000)
  refine ⟨_, parse_letterRun (by decide), hsites, ?_, hdepth, ?_⟩
  · rw [groupNames_patternNode, hnames]
  · rw [ofSource_patternSource (by simp [hnames]) (by simp [hnames]), if_neg (Nat.not_lt_of_le hdepth),
      if_pos (maxSize_lt_letterRun (by decide))]

/-- Operators, a line break and the separator itself are literal characters like any other. -/
theorem read_patternSource_operators :
    ∃ path host, Tree.parse "a.+(\n\x00|[/:x(int)]$" = .ok path ∧ Tree.parse "w|:h" = .ok host
      ∧ Progress.finish {} (patternSource path (some host)).toList
          = .ok (.sequence [.assertion .textStart,
              .group .plain (.sequence [.char 'w' true, .char '|' true,
                .group (.named "h") (.repetition (.oneOf Side.host.fillers 2) 1 none true)]),
              .char '\x00' false, .char 'a' false, .char '.' false, .char '+' false,
              .char '(' false, .char '\n' false, .char '\x00' false, .char '|' false,
              .repetition (.group .plain (.sequence [.char '/' false,
                .group (.named "x") (.repetition (.oneOf Side.path.fillers 1) 1 none true)]))
                0 (some 1) true,
              .char '$' false, .assertion .textEnd])
      ∧ ∃ template, compile .standard "/a.+(\n\x00|[/:x(int)]$" (some "w|:h") = .ok template
          ∧ template.variableNames = ["h", "x"] := by
  have hpath : Tree.parse "a.+(\n\x00|[/:x(int)]$" = .ok (.sequence [.literal "a.+(\n\x00|",
      .optional [.literal "/", .variable "x" [⟨"int", []⟩] none], .literal "$"]) := by
    cbv
    exact eq_of_bind_read (by cbv)
  have hhost : ∀ side ∈ some (TemplateSide.mk "w|:h"
        (.sequence [.literal "w|", .variable "h" [] none])),
      Tree.parse side.text = .ok side.tree := by
    rintro _ ⟨⟩
    cbv
  obtain ⟨hread, hnames, -, hcompile⟩ := read_patternSource hpath hhost (by decide)
  refine ⟨_, _, hpath, hhost _ rfl, hread, ?_⟩
  have hrules : ∀ site ∈ [Site.mk "h" [] none false, ⟨"x", [⟨"int", []⟩], none, true⟩],
      Resolves .standard site.calls := by
    have hint : RuleBook.standard.resolve ⟨"int", []⟩ = .ok .int := rfl
    simp [Resolves, hint]
  obtain ⟨hok, herror⟩ := hcompile .standard "/a.+(\n\x00|[/:x(int)]$" (by cbv) hrules
  cases hresult : compile .standard "/a.+(\n\x00|[/:x(int)]$" (some "w|:h") with
  | ok template => exact ⟨template, rfl, (hok template hresult).2.trans hnames⟩
  | error e =>
    obtain ⟨hdepth, -⟩ | ⟨-, hsize, -⟩ | ⟨site, hmem, default, hdefault, -⟩ := herror e hresult
    · exact absurd hdepth (by decide)
    · exact absurd hsize (by decide +kernel)
    · have hplain : ∀ site ∈ [Site.mk "h" [] none false, ⟨"x", [⟨"int", []⟩], none, true⟩],
          site.default = none := by
        simp
      cases (hplain site hmem).symm.trans hdefault

end Template

end UriRouting
