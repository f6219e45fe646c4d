import UriRouting.Proofs.Template.Leaves
import UriRouting.Proofs.Template.Returned
/-!
# What is written from values

From values a tree is written leaf by leaf. An optional segment is written as a whole or not at all, so a leaf
is written if all segments around it are. The leaves that are written need texts that fit in a segment, and
the first that has none is reported. Only outside the optional segments can a value be missing: inside, a
segment is not written unless the variables directly inside have values.

* `Tree.emittedLeaves` lists the leaves that are written;
* `Template.Writing` says what is written for some leaves, or which is reported;
* `Template.renderAll_eq_renderAll_leavesOf` says that a tree is written as its leaves are;
* `Template.writing_of_compile` says what a template writes for a path and a host.
-/

namespace UriRouting

open UriRouting.Tree UriRouting.Template

/-! ## Leaves that are written -/

namespace Template

/-- A variable is directly among some parts, and each variable that is has a value. -/
def Supplied (values : Values) (parts : List Tree) : Prop :=
  (∃ name calls default, .variable name calls default ∈ parts)
    ∧ ∀ name calls default, .variable name calls default ∈ parts → (values.lookup name).isSome = true

theorem mem_directVariables {parts : List Tree} {name : String} :
    name ∈ directVariables parts ↔ ∃ calls default, .variable name calls default ∈ parts := by
  rw [directVariables, List.mem_filterMap]
  constructor
  · rintro ⟨part, hpart, hname⟩
    cases part with
    | «variable» own calls default =>
      cases hname
      exact ⟨calls, default, hpart⟩
    | _ => cases hname
  · rintro ⟨calls, default, hpart⟩
    exact ⟨_, hpart, rfl⟩

theorem isSupplied_iff {values : Values} {parts : List Tree} :
    isSupplied values parts = true ↔ Supplied values parts := by
  have hsome : directVariables parts ≠ [] ↔ ∃ name calls default, .variable name calls default ∈ parts := by
    simp only [← mem_directVariables]
    exact ⟨List.exists_mem_of_ne_nil _, fun ⟨_, hname⟩ => List.ne_nil_of_mem hname⟩
  have hall : (∀ name ∈ directVariables parts, (values.lookup name).isSome = true)
      ↔ ∀ name calls default, .variable name calls default ∈ parts → (values.lookup name).isSome = true := by
    simp only [mem_directVariables, forall_exists_index]
  rw [Supplied, ← hsome, ← hall, isSupplied]
  simp

instance (values : Values) (parts : List Tree) : Decidable (Supplied values parts) :=
  decidable_of_iff _ isSupplied_iff

end Template

namespace Tree

/-- A leaf is written if all optional segments around it are. -/
def Leaf.Emitted (values : Values) (leaf : Leaf) : Prop :=
  ∀ parts ∈ leaf.around, Supplied values parts

instance (values : Values) (leaf : Leaf) : Decidable (leaf.Emitted values) :=
  inferInstanceAs (Decidable (∀ parts ∈ leaf.around, Supplied values parts))

/-- The leaves of a tree that are written, in template order. -/
def emittedLeaves (values : Values) (tree : Tree) : List Leaf :=
  (tree.leaves []).filter fun leaf => leaf.Emitted values

/-- The text that is written for a leaf. -/
inductive Leaf.Shows (side : Side) (values : Values) : Leaf → String → Prop where
  /-- A literal stands for itself. -/
  | literal (own : String) (around : List (List Tree)) : Shows side values (.literal own around) own
  /-- A variable has a value, and its text fits. -/
  | value {name : String} {calls : List RuleCall} {default : Option String} {around : List (List Tree)}
      {value : Value} (hvalue : values.lookup name = some value) (hfits : side.Admits value.text.toList) :
      Shows side values (.variable name calls default around) value.text
  /-- A variable has no value, and its default fits. -/
  | default {name : String} {calls : List RuleCall} {text : String} {around : List (List Tree)}
      (hvalue : values.lookup name = none) (hfits : side.Admits text.toList) :
      Shows side values (.variable name calls (some text) around) text

/-- Why no text is written for a leaf. -/
inductive Leaf.Fails (side : Side) (values : Values) : Leaf → GenerationError → Prop where
  /-- A variable has neither a value nor a default. -/
  | missing {name : String} {calls : List RuleCall} {around : List (List Tree)}
      (hvalue : values.lookup name = none) :
      Fails side values (.variable name calls none around) (.missingVariable name)
  /-- A variable has a value, and its text does not fit. -/
  | value {name : String} {calls : List RuleCall} {default : Option String} {around : List (List Tree)}
      {value : Value} (hvalue : values.lookup name = some value) (hfits : ¬ side.Admits value.text.toList) :
      Fails side values (.variable name calls default around) (.unfitValue name value.text)
  /-- A variable has no value, and its default does not fit. -/
  | default {name : String} {calls : List RuleCall} {text : String} {around : List (List Tree)}
      (hvalue : values.lookup name = none) (hfits : ¬ side.Admits text.toList) :
      Fails side values (.variable name calls (some text) around) (.unfitValue name text)

end Tree

namespace Template

variable {side : Side} {values : Values}

/-! ## One leaf -/

/-- The text that is written for a leaf is the one that the leaf shows. -/
theorem render_of_shows {leaf : Leaf} {text : String} (h : leaf.Shows side values text) :
    render side values leaf.part = .ok text := by
  cases h with
  | literal => rw [Leaf.part, render]
  | value hvalue hfits =>
    rw [Leaf.part, render]
    exact (variableText_of_lookup hvalue).1 hfits
  | default hvalue hfits =>
    rw [Leaf.part, render]
    exact (variableText_of_text (by rw [hvalue]; rfl)).1 hfits

theorem render_of_fails {leaf : Leaf} {e : GenerationError} (h : leaf.Fails side values e) :
    render side values leaf.part = .error e := by
  cases h with
  | missing hvalue =>
    rw [Leaf.part, render, variableText, hvalue]
    rfl
  | value hvalue hfits =>
    rw [Leaf.part, render]
    exact (variableText_of_lookup hvalue).2 hfits
  | default hvalue hfits =>
    rw [Leaf.part, render]
    exact (variableText_of_text (by rw [hvalue]; rfl)).2 hfits

/-- A leaf shows a text or fails. -/
theorem shows_or_fails (side : Side) (values : Values) (leaf : Leaf) :
    (∃ text, leaf.Shows side values text) ∨ ∃ e, leaf.Fails side values e := by
  cases leaf with
  | literal own around => exact Or.inl ⟨own, .literal own around⟩
  | «variable» name calls default around =>
    cases hvalue : values.lookup name with
    | some value =>
      by_cases hfits : side.Admits value.text.toList
      · exact Or.inl ⟨_, .value hvalue hfits⟩
      · exact Or.inr ⟨_, .value hvalue hfits⟩
    | none =>
      cases default with
      | none => exact Or.inr ⟨_, .missing hvalue⟩
      | some text =>
        by_cases hfits : side.Admits text.toList
        · exact Or.inl ⟨_, .default hvalue hfits⟩
        · exact Or.inr ⟨_, .default hvalue hfits⟩

/-! ## Several leaves -/

/-- What is written for some leaves: their texts, or the error of the first that has none. -/
inductive Writing (side : Side) (values : Values) (leaves : List Leaf) :
    Except GenerationError String → Prop where
  | texts {texts : List String} (h : List.Forall₂ (Leaf.Shows side values) leaves texts) :
      Writing side values leaves (.ok (String.join texts))
  | fault {front back : List Leaf} {leaf : Leaf} {e : GenerationError}
      (hleaves : leaves = front ++ leaf :: back)
      (hfront : ∀ other ∈ front, ∃ text, other.Shows side values text) (h : leaf.Fails side values e) :
      Writing side values leaves (.error e)

theorem join_cons (text : String) (texts : List String) :
    String.join (text :: texts) = text ++ String.join texts := by
  simp [String.join_eq]

/-- Leaves are written one after another, up to the first that fails. -/
theorem writing_renderAll (leaves : List Leaf) :
    Writing side values leaves (renderAll side values (leaves.map Leaf.part)) := by
  induction leaves with
  | nil =>
    rw [List.map_nil, renderAll]
    exact .texts .nil
  | cons leaf leaves ih =>
    rw [List.map_cons, renderAll]
    rcases shows_or_fails side values leaf with ⟨text, hshows⟩ | ⟨e, hfails⟩
    · rw [render_of_shows hshows]
      generalize renderAll side values (leaves.map Leaf.part) = rest at ih
      cases ih with
      | texts h =>
        simp only [Except.map, ← join_cons]
        exact .texts (.cons hshows h)
      | @fault front back failed _ hleaves hfront h =>
        have hsplit : leaf :: leaves = (leaf :: front) ++ failed :: back := by
          rw [hleaves, List.cons_append]
        exact .fault hsplit (List.forall_mem_cons.2 ⟨⟨text, hshows⟩, hfront⟩) h
    · rw [render_of_fails hfails]
      exact .fault (List.nil_append _).symm (List.forall_mem_nil _) hfails

/-- What is written for leaves is what rendering them gives. -/
theorem Writing.renderAll_eq {leaves : List Leaf} {result : Except GenerationError String}
    (h : Writing side values leaves result) : renderAll side values (leaves.map Leaf.part) = result := by
  cases h with
  | texts h =>
    induction h with
    | nil =>
      rw [List.map_nil, renderAll]
      rfl
    | cons hshows _ ih =>
      rw [List.map_cons, renderAll, render_of_shows hshows, ih, join_cons]
      rfl
  | @fault front _ _ _ hleaves hfront h =>
    subst hleaves
    induction front with
    | nil =>
      rw [List.nil_append, List.map_cons, renderAll, render_of_fails h]
    | cons leaf front ih =>
      obtain ⟨⟨text, hshows⟩, hfront⟩ := List.forall_mem_cons.1 hfront
      rw [List.cons_append, List.map_cons, renderAll, render_of_shows hshows, ih hfront]
      rfl

/-! ## The leaves of a tree -/

theorem renderAll_append (parts parts' : List Tree) :
    renderAll side values (parts ++ parts') =
      match renderAll side values parts with
      | .error e => .error e
      | .ok text => (renderAll side values parts').map (text ++ ·) := by
  induction parts with
  | nil =>
    rw [List.nil_append, renderAll]
    cases renderAll side values parts' <;> simp [Except.map]
  | cons part parts ih =>
    rw [List.cons_append, renderAll, renderAll, ih]
    cases render side values part with
    | error e => rfl
    | ok text =>
      cases renderAll side values parts with
      | error e => rfl
      | ok own => cases renderAll side values parts' <;> simp [Except.map, String.append_assoc]

mutual

/-- Segments around a tree are around its leaves. -/
theorem around_suffix_of_mem_leaves {around : List (List Tree)} {tree : Tree} {leaf : Leaf}
    (h : leaf ∈ tree.leaves around) : around <:+ leaf.around := by
  cases tree with
  | sequence parts =>
    rw [leaves] at h
    exact around_suffix_of_mem_leavesOf h
  | literal own =>
    obtain rfl := List.mem_singleton.1 h
    exact List.suffix_refl _
  | «variable» name calls default =>
    obtain rfl := List.mem_singleton.1 h
    exact List.suffix_refl _
  | optional parts =>
    rw [leaves] at h
    exact (List.suffix_cons parts around).trans (around_suffix_of_mem_leavesOf h)

theorem around_suffix_of_mem_leavesOf {around : List (List Tree)} {parts : List Tree} {leaf : Leaf}
    (h : leaf ∈ leavesOf around parts) : around <:+ leaf.around := by
  cases parts with
  | nil => cases h
  | cons part parts =>
    rw [leavesOf, List.mem_append] at h
    rcases h with h | h
    · exact around_suffix_of_mem_leaves h
    · exact around_suffix_of_mem_leavesOf h

end

/-- No leaf of a segment is written that is left out. -/
theorem filter_leavesOf_eq_nil {parts : List Tree} (h : ¬ Supplied values parts)
    (around : List (List Tree)) :
    (leavesOf (parts :: around) parts).filter (fun leaf => leaf.Emitted values) = [] := by
  rw [List.filter_eq_nil_iff]
  intro leaf hleaf hemitted
  have haround : parts ∈ leaf.around :=
    (around_suffix_of_mem_leavesOf hleaf).mem List.mem_cons_self
  exact h (of_decide_eq_true hemitted parts haround)

mutual

/-- A tree is written as its leaves are, inside segments that are written. -/
theorem render_eq_renderAll_leaves {around : List (List Tree)}
    (haround : ∀ parts ∈ around, Supplied values parts) (tree : Tree) :
    render side values tree
      = renderAll side values
        (((tree.leaves around).filter fun leaf => leaf.Emitted values).map Leaf.part) := by
  cases tree with
  | sequence parts =>
    rw [render, leaves]
    exact renderAll_eq_renderAll_leavesOf haround parts
  | literal own =>
    have hemitted : (Leaf.literal own around).Emitted values := haround
    simp [leaves, hemitted, renderAll, render, Leaf.part, Except.map]
  | «variable» name calls default =>
    have hemitted : (Leaf.variable name calls default around).Emitted values := haround
    rw [leaves, List.filter_singleton, decide_eq_true hemitted]
    simp only [cond_true, List.map_cons, List.map_nil, renderAll, Leaf.part]
    cases render side values (.variable name calls default) <;> simp [Except.map]
  | optional parts =>
    rw [render, leaves]
    by_cases hsupplied : Supplied values parts
    · rw [if_pos (isSupplied_iff.2 hsupplied)]
      exact renderAll_eq_renderAll_leavesOf (List.forall_mem_cons.2 ⟨hsupplied, haround⟩) parts
    · rw [if_neg (mt isSupplied_iff.1 hsupplied), filter_leavesOf_eq_nil hsupplied, List.map_nil,
        renderAll]

theorem renderAll_eq_renderAll_leavesOf {around : List (List Tree)}
    (haround : ∀ parts ∈ around, Supplied values parts) (parts : List Tree) :
    renderAll side values parts
      = renderAll side values
        (((leavesOf around parts).filter fun leaf => leaf.Emitted values).map Leaf.part) := by
  cases parts with
  | nil => rfl
  | cons part parts =>
    have hpart := render_eq_renderAll_leaves haround part
    have hparts := renderAll_eq_renderAll_leavesOf haround parts
    rw [leavesOf, List.filter_append, List.map_append]
    cases hrender : render side values part with
    | error e => rw [renderAll, renderAll_append, ← hpart, hrender]
    | ok text => rw [renderAll, renderAll_append, ← hpart, ← hparts, hrender]

end

/-- What is made of a tree that was read is made of what is written for its leaves. -/
theorem map_renderAll_eq_iff {β : Type} {source : String} {tree : Tree}
    (hparse : Tree.parse source = .ok tree) (f : String → β) (result : Except GenerationError β) :
    (renderAll side values tree.parts).map f = result
      ↔ ∃ written, Writing side values (emittedLeaves values tree) written ∧ result = written.map f := by
  obtain ⟨parts, rfl, -⟩ := grammatical_of_parse hparse
  rw [Tree.parts, renderAll_eq_renderAll_leavesOf (List.forall_mem_nil _) parts, emittedLeaves, leaves]
  constructor
  · rintro rfl
    exact ⟨_, writing_renderAll _, rfl⟩
  · rintro ⟨written, hwriting, rfl⟩
    rw [hwriting.renderAll_eq]

/-! ## Missing values -/

theorem exists_mem_of_mem_leavesOf {around : List (List Tree)} {parts : List Tree} {leaf : Leaf}
    (h : leaf ∈ leavesOf around parts) : ∃ part ∈ parts, leaf ∈ part.leaves around := by
  induction parts with
  | nil => cases h
  | cons part parts ih =>
    rw [leavesOf, List.mem_append] at h
    rcases h with h | h
    · exact ⟨part, List.mem_cons_self, h⟩
    · obtain ⟨other, hother, h⟩ := ih h
      exact ⟨other, List.mem_cons_of_mem _ hother, h⟩

/-- A leaf of a part is the part itself, or it is directly inside the innermost segment around it. -/
theorem leaf_of_grammatical {depth : Nat} {tree : Tree} (htree : Grammatical depth tree)
    {around : List (List Tree)} {leaf : Leaf} (h : leaf ∈ tree.leaves around) :
    (leaf.around = around ∧ leaf.part = tree)
      ∨ ∃ inner outer, leaf.around = inner :: outer ∧ leaf.part ∈ inner := by
  induction htree generalizing around with
  | literal =>
    obtain rfl := List.mem_singleton.1 h
    exact Or.inl ⟨rfl, rfl⟩
  | «variable» =>
    obtain rfl := List.mem_singleton.1 h
    exact Or.inl ⟨rfl, rfl⟩
  | @optional depth parts _ _ _ ih =>
    rw [leaves] at h
    obtain ⟨part, hpart, h⟩ := exists_mem_of_mem_leavesOf h
    rcases ih part hpart h with ⟨haround, rfl⟩ | hinner
    · exact Or.inr ⟨parts, around, haround, hpart⟩
    · exact Or.inr hinner

/-- A leaf of a template that is written and has neither a value nor a default is in no segment. -/
theorem around_eq_nil_of_missing {source : String} {tree : Tree} (hparse : Tree.parse source = .ok tree)
    {name : String} {calls : List RuleCall} {default : Option String} {around : List (List Tree)}
    (h : .variable name calls default around ∈ emittedLeaves values tree)
    (hvalue : values.lookup name = none) : around = [] := by
  obtain ⟨parts, rfl, hparts⟩ := grammatical_of_parse hparse
  obtain ⟨hleaf, hemitted⟩ := List.mem_filter.1 h
  rw [leaves] at hleaf
  obtain ⟨part, hpart, hleaf⟩ := exists_mem_of_mem_leavesOf hleaf
  rcases leaf_of_grammatical (hparts.part part hpart) hleaf with
    ⟨haround, -⟩ | ⟨inner, outer, haround, hinner⟩
  · exact haround
  · -- the segment would not be written
    have hsupplied : Supplied values inner := of_decide_eq_true hemitted inner (haround ▸ List.mem_cons_self)
    have hsome := hsupplied.2 name calls default hinner
    rw [hvalue] at hsome
    cases hsome

/-- No variable inside an optional segment lacks a value where the tree of a template is written. -/
theorem optional_of_writing_missing {book : RuleBook} {template : Template} (h : template.IsRead book)
    {source : String} {tree : Tree} (hparse : Tree.parse source = .ok tree)
    (hleaves : ∀ leaf ∈ tree.leaves [], leaf ∈ leavesIn template.path.tree template.hostTree?)
    {written : Except GenerationError String}
    (hwriting : Writing side values (emittedLeaves values tree) written) {β : Type} {f : String → β}
    {name : String} (hmissing : .error (.missingVariable name) = written.map f)
    {site : Site} (hsite : site ∈ variablesIn template.path.tree template.hostTree?)
    (hname : site.name = name) : site.optional = false := by
  cases hwriting with
  | texts => cases hmissing
  | @fault front back leaf _ hsplit hfront hfails =>
    cases hmissing
    have hemitted : leaf ∈ emittedLeaves values tree := hsplit ▸ List.mem_append_cons_self
    cases hfails with
    | @missing _ calls around hvalue =>
      obtain rfl := around_eq_nil_of_missing hparse hemitted hvalue
      have hleaf := hleaves _ (List.mem_filter.1 hemitted).1
      have hown : ⟨name, calls, none, false⟩ ∈ variablesIn template.path.tree template.hostTree? :=
        List.mem_filterMap.2 ⟨_, hleaf, rfl⟩
      -- only one variable has the name
      have hnodup : ((variablesIn template.path.tree template.hostTree?).map (·.name)).Nodup := by
        rw [← sitesIn_eq_variablesIn, map_name_sitesIn]
        exact h.nodup_names
      rw [List.inj_on_of_nodup_map hnodup hsite hown hname]

/-! ## Paths and hosts -/

/-- No host is written exactly where a template has none. -/
theorem buildHost_eq_none_iff {template : Template} :
    template.buildHost values = .ok none ↔ template.host = none := by
  rw [buildHost]
  cases template.host with
  | none => simp
  | some own =>
    cases hwritten : renderAll .host values own.tree.parts with
    | error e => simp [hwritten, Except.map]
    | ok text => simp [hwritten, Except.map]

/-- A template writes the path of its leaves and the host of its leaves, or it reports the first leaf that
has no text. A missing value is reported only of a variable that is in no optional segment. -/
theorem writing_of_compile {book : RuleBook} {path : String} {host : Option String} {template : Template}
    (h : compile book path host = .ok template) (values : Values) :
    (∀ result, template.buildPath values = result
        ↔ ∃ written, Writing .path values (emittedLeaves values template.path.tree) written
            ∧ result = written.map ("/" ++ ·))
      ∧ (template.buildHost values = .ok none ↔ template.host = none)
      ∧ (∀ side ∈ template.host, ∀ result, template.buildHost values = result
          ↔ ∃ written, Writing .host values (emittedLeaves values side.tree) written
              ∧ result = written.map some)
      ∧ ∀ name, template.buildPath values = .error (.missingVariable name)
          ∨ template.buildHost values = .error (.missingVariable name) →
        ∀ site ∈ variablesIn template.path.tree template.hostTree?, site.name = name →
          site.optional = false := by
  obtain ⟨-, -, hcompiled⟩ := compile_eq_ok h
  have hpath : ∀ result, template.buildPath values = result
      ↔ ∃ written, Writing .path values (emittedLeaves values template.path.tree) written
          ∧ result = written.map ("/" ++ ·) :=
    map_renderAll_eq_iff hcompiled.path _
  have hhost : ∀ own ∈ template.host, ∀ result, template.buildHost values = result
      ↔ ∃ written, Writing .host values (emittedLeaves values own.tree) written
          ∧ result = written.map some := by
    intro own hown
    rw [buildHost, Option.mem_def.1 hown]
    exact map_renderAll_eq_iff (hcompiled.host own hown) some
  refine ⟨hpath, buildHost_eq_none_iff, hhost, ?_⟩
  rintro name (hmissing | hmissing) site hsite hname
  · obtain ⟨written, hwriting, heq⟩ := (hpath _).1 hmissing
    exact optional_of_writing_missing hcompiled.toIsRead hcompiled.path
      (fun leaf => List.mem_append_right _) hwriting heq hsite hname
  · cases hside : template.host with
    | none =>
      rw [buildHost, hside] at hmissing
      cases hmissing
    | some own =>
      obtain ⟨written, hwriting, heq⟩ := (hhost own hside _).1 hmissing
      refine optional_of_writing_missing hcompiled.toIsRead (hcompiled.host own hside) ?_ hwriting heq
        hsite hname
      intro leaf hleaf
      rw [leavesIn, hostTree?, hside]
      exact List.mem_append_left _ hleaf

/-- Of a segment within a segment only the outer one is written if the inner variable has no value. -/
theorem writing_of_compile_nested : ∃ template,
    compile .standard "/a[/:x[/:y=2]]" none = .ok template
      ∧ template.buildPath [("x", .string "1")] = .ok "/a/1"
      ∧ template.buildHost [("x", .string "1")] = .ok none := by
  have hcompile := @compile_of_parse .standard "/a[/:x[/:y=2]]"
    (.sequence [.literal "a", .optional [.literal "/", .variable "x" [] none,
      .optional [.literal "/", .variable "y" [] (some "2")]]])
    none [⟨"x", [], [], none, true, .string⟩, ⟨"y", [], [], some "2", true, .string⟩]
    (by cbv) (by rintro side ⟨⟩) (by cbv) (by decide) (by decide +kernel)
  refine ⟨_, hcompile, ?_⟩
  obtain ⟨hpath, hhost, -⟩ := writing_of_compile hcompile [("x", .string "1")]
  refine ⟨(hpath _).2 ⟨.ok "a/1", ?_, rfl⟩, hhost.2 rfl⟩
  have hfits : Side.path.Admits (Value.string "1").text.toList := by
    simp [Value.text, Side.Admits, Side.forbids]
  exact @Writing.texts _ _ _ ["a", "/", "1"]
    (.cons (.literal _ _) (.cons (.literal _ _) (.cons (.value rfl hfits) .nil)))

end Template

end UriRouting
