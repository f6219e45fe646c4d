import UriRouting.Proofs.Template.TwoTexts
/-!
# Hosts in any case

The host of a template does not tell characters apart that fold to the same one, and its path tells all
characters apart. So requests for hosts that differ in case only are searched alike up to the separator,
and behind it they are the same. But a host that holds a separator is the path's from there on, and then
its case counts.

* `Tree.leadsAlike_items` says that a side of a template leads on the same walks through texts that are
  the same to it;
* `hostStage` and `pathStage` are the two stages of a search;
* `Template.search_subject_sameFold` says that hosts that differ in case only, and only in front of their
  first separator, are matched at the same places, with the same texts of the variables of the path;
* `Template.search_subject_folded_separator` are two hosts that differ in case behind a separator.
-/

namespace UriRouting

open Pattern UriRouting.Tree

/-! ## What a side tells apart -/

/-- Of two characters that fold to the same one, both or none are a certain character in front of the
letters. -/
theorem eq_iff_of_foldCase {c d e : Char} (he : e.toNat < 0x41) (hfold : Text.foldCase e = e)
    (h : Text.foldCase c = Text.foldCase d) : c = e ↔ d = e := by
  constructor
  · rintro rfl
    exact eq_of_foldCase he (h.symm.trans hfold)
  · rintro rfl
    exact eq_of_foldCase he (h.trans hfold)

namespace Side

/-- A test does not tell characters apart that are the same to a side. -/
def Respects (side : Side) (accepts : Char → Bool) : Prop :=
  ∀ c d, side.sameChar c d = true → accepts c = accepts d

theorem respects_sameChar (side : Side) (own : Char) : side.Respects (side.sameChar own) := by
  intro c d h
  cases side with
  | path =>
    rw [beq_iff_eq.1 h]
  | host =>
    simp only [sameChar, beq_iff_eq] at h ⊢
    rw [h]

theorem respects_fillers (side : Side) : side.Respects side.fillers.contains := by
  intro c d h
  rw [contains_fillers, contains_fillers]
  cases side with
  | path =>
    rw [beq_iff_eq.1 h]
  | host =>
    have hfold : Text.foldCase c = Text.foldCase d := beq_iff_eq.1 h
    have hdot := eq_iff_of_foldCase (e := '.') (by decide) rfl hfold
    have hseparator := eq_iff_of_foldCase (e := '\x00') (by decide) rfl hfold
    simp only [forbids, Bool.beq_eq_decide_eq, hdot, hseparator]

end Side

/-- At a stage, what is left of two texts is the same to a side. -/
def Pattern.Stage.Suits (stage : Stage) (side : Side) (text text' : Array Char) : Prop :=
  ∀ place spans, stage.Admits place spans → List.Forall₂ (fun c d => side.sameChar c d = true)
    (text.toList.drop place) (text'.toList.drop place)

theorem Pattern.Stage.Suits.blurs {stage : Stage} {side : Side} {text text' : Array Char}
    (h : stage.Suits side text text') {accepts : Char → Bool} (haccepts : side.Respects accepts) :
    stage.Blurs text text' accepts := by
  intro place spans hplace
  rw [← List.forall₂_eq_eq_eq, List.forall₂_map_left_iff, List.forall₂_map_right_iff]
  exact (h place spans hplace).imp haccepts

/-! ## The items of a side -/

namespace Pattern

variable {text text' : Array Char} {stage : Stage} {side : Side}

theorem leadsAlike_char (h : stage.Suits side text text') (c : Char) :
    LeadsAlike text text' stage stage (Node.char c side.anyCase).fragment := by
  rw [Node.fragment, accepts_eq_sameChar]
  apply leadsAlike_take (h.blurs (side.respects_sameChar c))
  intro place spans hplace _
  exact stage.forward hplace (Nat.le_succ place)

theorem leadsAlike_variable (h : stage.Suits side text text') {name : String}
    (hname : name ∈ stage.names) :
    LeadsAlike text text' stage stage
      (Node.group (.named name) (.repetition (.oneOf side.fillers 0) 1 none true)).fragment :=
  (leadsAlike_skip.andThen (leadsAlike_oneOrMore (h.blurs side.respects_fillers))).capture hname

theorem leadsAlike_optional {body : Node} (h : LeadsAlike text text' stage stage body.fragment) :
    LeadsAlike text text' stage stage (Node.repetition body 0 (some 1) true).fragment :=
  leadsAlike_skip.andThen (h.andThen leadsAlike_skip).optionally

end Pattern

namespace Tree

variable {text text' : Array Char} {stage : Stage} {side : Side}

mutual

/-- The items of a tree lead on the same walks through texts that are the same to its side. -/
theorem leadsAlike_items (h : stage.Suits side text text') {tree : Tree}
    (hnames : tree.variableNames ⊆ stage.names) :
    ∀ node ∈ (tree.items side).map Node.reduced,
      LeadsAlike text text' stage stage node.fragment := by
  cases tree with
  | sequence parts =>
    rw [items]
    rw [variableNames] at hnames
    exact leadsAlike_itemsOf h hnames
  | literal own =>
    rw [items, List.map_map, List.forall_mem_map]
    intro c _
    exact leadsAlike_char h c
  | «variable» name calls default =>
    rw [items, List.map_singleton, reduced_variable, List.forall_mem_singleton]
    exact leadsAlike_variable h (hnames (List.mem_singleton_self name))
  | optional parts =>
    rw [items, List.map_singleton, reduced_optional,
      Node.reduced_ofItems (staysItem_of_mem_itemsOf side parts), List.forall_mem_singleton]
    rw [variableNames] at hnames
    exact leadsAlike_optional (leadsAlike_ofItems (leadsAlike_itemsOf h hnames))

/-- The items of some parts lead on the same walks. -/
theorem leadsAlike_itemsOf (h : stage.Suits side text text') {parts : List Tree}
    (hnames : variableNamesOf parts ⊆ stage.names) :
    ∀ node ∈ (itemsOf side parts).map Node.reduced,
      LeadsAlike text text' stage stage node.fragment := by
  cases parts with
  | nil => simp [itemsOf]
  | cons part parts =>
    rw [variableNamesOf, List.append_subset] at hnames
    rw [itemsOf, List.map_append, List.forall_mem_append]
    exact ⟨leadsAlike_items h hnames.1, leadsAlike_itemsOf h hnames.2⟩

end

end Tree

/-! ## The two stages of a search -/

namespace Template

/-- In front of the separator, only groups of the host are captured. -/
def hostStage (names : List String) : Stage where
  Admits _ spans := ∀ span ∈ spans, span.name ∈ names
  names := names
  forward h _ := h
  capture hname _ h := List.forall_mem_cons.2 ⟨hname, h⟩

/-- Behind the separator, which stands at a certain place, all other groups are captured behind it. -/
def pathStage (hostNames names : List String) (first : Nat) : Stage where
  Admits place spans := first < place ∧ ∀ span ∈ spans, span.name ∈ hostNames ∨ first < span.start
  names := names
  forward h hle := ⟨Nat.lt_of_lt_of_le h.1 hle, h.2⟩
  capture _ hstart h := ⟨h.1, List.forall_mem_cons.2 ⟨.inr hstart.1, h.2⟩⟩

/-- Two texts that differ in the case of what stands in front of their first separators. -/
structure Cased (front front' rest : List Char) (text text' : Array Char) : Prop where
  /-- The first text, around its first separator. -/
  text_eq : text.toList = front ++ separator :: rest
  /-- The second text, around its first separator. -/
  text_eq' : text'.toList = front' ++ separator :: rest
  /-- The separator is the first. -/
  free : separator ∉ front
  /-- What stands in front of the separators differs in case only. -/
  folded : List.Forall₂ (fun c d => Side.host.sameChar c d = true) front front'

namespace Cased

variable {front front' rest : List Char} {text text' : Array Char}

theorem size_eq (h : Cased front front' rest text text') : text.size = text'.size := by
  rw [← Array.length_toList, ← Array.length_toList, h.text_eq, h.text_eq', List.length_append,
    List.length_append, h.folded.length_eq]

/-- Behind the separators the texts are the same. -/
theorem drop_eq (h : Cased front front' rest text text') {place : Nat} (hplace : front.length < place) :
    text.toList.drop place = text'.toList.drop place := by
  obtain ⟨more, rfl⟩ := Nat.exists_eq_add_of_lt hplace
  rw [h.text_eq, h.text_eq', Nat.add_assoc, List.drop_length_add_append, h.folded.length_eq,
    List.drop_length_add_append]

/-- No separator stands in front of the first. -/
theorem le_of_getElem? (h : Cased front front' rest text text') {place : Nat}
    (hplace : text[place]? = some separator) : front.length ≤ place := by
  by_contra hlt
  rw [← Array.getElem?_toList, h.text_eq, List.getElem?_append_left (Nat.lt_of_not_le hlt)] at hplace
  exact h.free (List.mem_of_getElem? hplace)

theorem suits_host (h : Cased front front' rest text text') (names : List String) :
    (hostStage names).Suits .host text text' := by
  intro place spans _
  have hrest : List.Forall₂ (fun c d => Side.host.sameChar c d = true) (separator :: rest)
      (separator :: rest) := by
    rw [List.forall₂_same]
    intro c _
    exact beq_self_eq_true _
  rw [h.text_eq, h.text_eq']
  exact List.forall₂_drop place (List.rel_append h.folded hrest)

theorem suits_path (h : Cased front front' rest text text') (hostNames names : List String) :
    (pathStage hostNames names front.length).Suits .path text text' := by
  intro place spans hplace
  rw [h.drop_eq hplace.1, List.forall₂_same]
  intro c _
  exact beq_self_eq_true c

/-- The separator leads from the one stage to the other. -/
theorem leadsAlike_separator (h : Cased front front' rest text text') (hostNames names : List String) :
    LeadsAlike text text' (hostStage hostNames) (pathStage hostNames names front.length)
      (Node.char separator false).fragment := by
  have hrespects : Side.host.Respects (Node.accepts separator false) := by
    intro c d hsame
    have hiff := eq_iff_of_foldCase (e := separator) (by decide) rfl (beq_iff_eq.1 hsame)
    show (c == separator) = (d == separator)
    simp only [Bool.beq_eq_decide_eq, hiff]
  apply leadsAlike_take ((h.suits_host hostNames).blurs hrespects)
  intro place spans hspans htake
  have hplace : text[place]? = some separator := by
    cases hnext : text[place]? with
    | none => simp [hnext] at htake
    | some c =>
      rw [hnext] at htake
      rw [beq_iff_eq.1 htake]
  exact ⟨Nat.lt_succ_of_le (h.le_of_getElem? hplace), fun span hspan => .inl (hspans span hspan)⟩

/-- The pattern of a template leads from the one stage to the other. -/
theorem leadsAlike_patternNode (h : Cased front front' rest text text') (path host : Tree) :
    LeadsAlike text text' (hostStage host.variableNames)
      (pathStage host.variableNames path.variableNames front.length)
      (patternNode path (some host)).reduced.fragment := by
  have hstart : LeadsAlike text text' (hostStage host.variableNames) (hostStage host.variableNames)
      (Node.assertion .textStart).fragment := leadsAlike_check h.size_eq (.inl rfl)
  have hend : LeadsAlike text text'
      (pathStage host.variableNames path.variableNames front.length)
      (pathStage host.variableNames path.variableNames front.length)
      (Node.assertion .textEnd).fragment := leadsAlike_check h.size_eq (.inr rfl)
  have hhost := leadsAlike_items (h.suits_host host.variableNames) (List.Subset.refl _)
  have hpath := leadsAlike_items (h.suits_path host.variableNames path.variableNames)
    (List.Subset.refl _)
  rw [reduced_patternNode, itemsOf_hostItem, Node.ofItems_cons_append, Node.fragment]
  apply hstart.andThen
  apply leadsAlike_fragmentOfAll_append hhost
  apply (h.leadsAlike_separator host.variableNames path.variableNames).andThen
  exact leadsAlike_fragmentOfAll_append hpath (hend.andThen leadsAlike_skip)

end Cased

/-- The texts of two requests for hosts that differ in case, and only in front of their first
separator. -/
theorem exists_cased {host host' : List Char}
    (hfold : List.Forall₂ (fun c d => Text.foldCase c = Text.foldCase d) host host')
    (hsame : fromSeparator host = fromSeparator host') (path : List Char) :
    ∃ front front' rest, Cased front front' rest (host ++ separator :: path).toArray
      (host' ++ separator :: path).toArray := by
  induction hfold with
  | nil => exact ⟨[], [], path, rfl, rfl, List.not_mem_nil, .nil⟩
  | @cons c d host host' hcd hfold ih =>
    have hiff := eq_iff_of_foldCase (e := separator) (by decide) rfl hcd
    by_cases hc : c = separator
    · have hd := hiff.1 hc
      obtain rfl : host = host' := by
        simpa [fromSeparator, hc, hd] using hsame
      rw [hc, hd]
      exact ⟨[], [], host ++ separator :: path, rfl, rfl, List.not_mem_nil, .nil⟩
    · have hd : d ≠ separator := fun hd => hc (hiff.2 hd)
      have hsame' : fromSeparator host = fromSeparator host' := by
        simpa [fromSeparator, hc, hd] using hsame
      obtain ⟨front, front', rest, htext, htext', hfree, hfront⟩ := ih hsame'
      refine ⟨c :: front, d :: front', rest, ?_, ?_, ?_, .cons (beq_iff_eq.2 hcd) hfront⟩
      · rw [List.cons_append, List.cons_append, ← htext]
      · rw [List.cons_append, List.cons_append, ← htext']
      · rw [List.mem_cons, not_or]
        exact ⟨Ne.symm hc, hfree⟩

/-! ## Searches -/

/-- Two searches find nothing, or both match: all groups capture the same places, and those of certain
names the same texts. -/
def SamePlaces (names : List String) : Option Captures → Option Captures → Prop :=
  Option.Rel fun captures captures' => captures.spans = captures'.spans
    ∧ ∀ name ∈ names, captures.get? name = captures'.get? name

/-- A group that was captured behind the separator has the same text. -/
theorem Cased.get?_eq {front front' rest : List Char} {text text' : Array Char}
    (h : Cased front front' rest text text') {hostNames names : List String} {place : Nat}
    {spans : List Span} (hspans : (pathStage hostNames names front.length).Admits place spans)
    {name : String} (hname : name ∉ hostNames) :
    Captures.get? ⟨text, spans⟩ name = Captures.get? ⟨text', spans⟩ name := by
  rw [Captures.get?, Captures.get?]
  apply Option.map_congr
  intro span hspan
  have hown : span.name = name := by simpa using List.find?_some hspan
  have hlater : front.length < span.start :=
    (hspans.2 span (List.mem_of_find?_eq_some hspan)).resolve_left (hown ▸ hname)
  rw [slice, slice, Array.toList_extract, Array.toList_extract, List.extract_eq_take_drop,
    List.extract_eq_take_drop, h.drop_eq hlater]

/-- Hosts that differ in case only, and only in front of their first separator, are matched alike: at
the same places, and with the same texts of the variables of the path. -/
theorem search_subject_sameFold {book : RuleBook} {path host : String} {template : Template}
    (h : compile book path (some host) = .ok template) {reqHost reqHost' : String}
    (hfold : List.Forall₂ (fun c d => Text.foldCase c = Text.foldCase d) reqHost.toList reqHost'.toList)
    (hsame : fromSeparator reqHost.toList = fromSeparator reqHost'.toList) (reqPath : String) :
    SamePlaces template.path.tree.variableNames (template.pattern.search (subject reqHost reqPath))
      (template.pattern.search (subject reqHost' reqPath)) := by
  obtain ⟨-, hhost, hcompiled⟩ := compile_eq_ok h
  obtain ⟨side, hside, rfl⟩ := Option.map_eq_some_iff.1 hhost
  have htree : template.hostTree? = some side.tree := by rw [hostTree?, hside, Option.map_some]
  have hnames := hcompiled.nodup_names
  rw [htree, namesOf, Option.elim_some, List.nodup_append] at hnames
  obtain ⟨front, front', rest, hcased⟩ :=
    exists_cased hfold hsame (stripSlashes reqPath).toList
  rw [← toList_subject, ← toList_subject] at hcased
  have hleads := hcased.leadsAlike_patternNode template.path.tree side.tree
  rw [← htree, ← hcompiled.node_eq] at hleads
  obtain ⟨hfirst, hreached⟩ := firstWalk?_of_leadsAlike hcased.size_eq hleads (by simp [hostStage])
  rw [Pattern.search, Pattern.search, ← hfirst]
  cases hwalk : template.pattern.node.network.firstWalk? (subject reqHost reqPath).toList.toArray with
  | none => exact .none
  | some walk =>
    refine .some ⟨rfl, ?_⟩
    intro name hname
    apply hcased.get?_eq (hreached walk hwalk)
    intro hmem
    exact hnames.2.2 name hmem name hname rfl

/-- A host of two labels and a path of one segment are matched, and the variable of the path captures the
whole path. -/
theorem exists_search_labels : ∃ template, compile .standard "/:x" (some ":h.k") = .ok template
    ∧ template.path.tree.variableNames = ["x"] ∧ ∀ path : String, stripSlashes path ≠ "" →
      '/' ∉ (stripSlashes path).toList → ∃ captures,
        template.pattern.search (subject "a.k" path) = some captures
          ∧ captures.get? "x" = some (stripSlashes path) := by
  have hcompile := @compile_of_parse .standard "/:x" (.sequence [.variable "x" [] none])
    (some ⟨":h.k", .sequence [.variable "h" [] none, .literal ".k"]⟩)
    [⟨"h", [], [], none, false, .string⟩, ⟨"x", [], [], none, false, .string⟩]
    (by cbv) (by rintro side ⟨⟩; cbv) (by cbv) (by decide) (by decide +kernel)
  refine ⟨_, hcompile, rfl, ?_⟩
  intro path hne hslash
  have hfree : ∀ c ∈ (stripSlashes path).toList, Side.path.forbids c = false :=
    fun c hc => beq_eq_false_iff_ne.2 (ne_of_mem_of_not_mem hc hslash)
  have hanswers := search_subject hcompile (by decide) (show separator ∉ "a.k".toList by decide) path
  have hhost : Tree.Derives .host (.sequence [.variable "h" [] none, .literal ".k"]) "a.k".toList
      [1] [("h", ['a'])] := by
    have hlabel : Tree.Derives .host (.variable "h" [] none) ['a'] [1] [("h", ['a'])] :=
      .variable (List.cons_ne_nil _ _) (List.forall_mem_singleton.2 rfl)
    have hdomain : Tree.Derives .host (.literal ".k") ".k".toList [] [] :=
      .literal (List.forall₂_same.2 fun c _ => beq_self_eq_true _)
    exact .sequence (.cons hlabel (.cons hdomain .nil))
  cases hsearch : Pattern.search _ (subject "a.k" path) with
  | none =>
    rw [hsearch] at hanswers
    exact (hanswers _ _ (.intro (.own hhost) (derives_sequence_variable.2
      ⟨String.toList_eq_nil_iff.not.2 hne, hfree, rfl, rfl⟩))).elim
  | some captures =>
    rw [hsearch] at hanswers
    obtain ⟨choices, captured, hfavours, hget⟩ := hanswers
    refine ⟨captures, rfl, ?_⟩
    cases hfavours.derives with
    | @intro _ _ captured captured' hhost hpath =>
      obtain ⟨-, -, -, rfl⟩ := derives_sequence_variable.1 hpath
      have hnone : captured.lookup "x" = none :=
        lookup_eq_none_iff_notMem.2 fun hmem => absurd (hhost.names.subset hmem) (by decide)
      rw [hget, List.lookup_append, hnone]
      simp

/-- The Kelvin sign folds to the letter, in the place of which it stands in the host. -/
theorem search_subject_sameFold_labels : ∃ template captures captures',
    compile .standard "/:x" (some ":h.k") = .ok template
      ∧ template.pattern.search (subject "a.k" "/c") = some captures
      ∧ template.pattern.search (subject "A.\u212a" "/c") = some captures'
      ∧ captures.spans = captures'.spans
      ∧ captures.get? "x" = some "c" ∧ captures'.get? "x" = some "c" := by
  obtain ⟨template, hcompile, hnames, hsearch⟩ := exists_search_labels
  obtain ⟨captures, hcaptures, hx⟩ := hsearch "/c" (by decide) (by decide)
  have hfold : List.Forall₂ (fun c d => Text.foldCase c = Text.foldCase d) "a.k".toList
      "A.\u212a".toList := .cons rfl (.cons rfl (.cons rfl .nil))
  have hsame := search_subject_sameFold hcompile hfold rfl "/c"
  rw [hcaptures, hnames] at hsame
  cases hother : template.pattern.search (subject "A.\u212a" "/c") with
  | none =>
    rw [hother] at hsame
    cases hsame
  | some captures' =>
    rw [hother] at hsame
    cases hsame with
    | some hsame =>
      refine ⟨template, captures, captures', hcompile, hcaptures, hother, hsame.1, hx, ?_⟩
      rw [← hsame.2 "x" List.mem_cons_self]
      exact hx

/-- Behind a separator in the host, the case of the host is the case of the path. -/
theorem search_subject_folded_separator : ∃ template captures captures',
    compile .standard "/:x" (some ":h.k") = .ok template
      ∧ List.Forall₂ (fun c d => Text.foldCase c = Text.foldCase d) "a.k\x00b".toList
        "a.k\x00B".toList
      ∧ template.pattern.search (subject "a.k\x00b" "/c") = some captures
      ∧ template.pattern.search (subject "a.k\x00B" "/c") = some captures'
      ∧ "x" ∈ template.path.tree.variableNames
      ∧ captures.get? "x" = some "b\x00c" ∧ captures'.get? "x" = some "B\x00c" := by
  obtain ⟨template, hcompile, hnames, hsearch⟩ := exists_search_labels
  obtain ⟨captures, hcaptures, hx⟩ := hsearch "/b\x00c" (by decide) (by decide)
  obtain ⟨captures', hcaptures', hx'⟩ := hsearch "/B\x00c" (by decide) (by decide)
  refine ⟨template, captures, captures', hcompile, ?_, hcaptures, hcaptures', ?_, hx, hx'⟩
  · exact .cons rfl (.cons rfl (.cons rfl (.cons rfl (.cons rfl .nil))))
  · rw [hnames]
    exact List.mem_cons_self

end Template

end UriRouting
