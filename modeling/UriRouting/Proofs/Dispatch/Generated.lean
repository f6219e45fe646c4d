import UriRouting.Proofs.Dispatch.BuildMatch
import UriRouting.Proofs.Template.Returned
/-!
# What is generated is matched

What is written for a side of a template can be derived from it. The path that is generated has one
slash more, and a request loses all slashes in front, so the pattern matches a host and a path that were
generated as long as the path starts with one slash only. It does where the template does not start with
an optional segment; a template that does can generate a path that it does not match.

Main statements: `Template.extract_generated`, `Template.not_isPrefix_of_buildPath` and
`Template.extract_generated_slashes`.
-/

namespace UriRouting

open UriRouting.Tree

namespace Template

mutual

/-- What is written for a tree can be derived from it. -/
theorem exists_derives_of_render {side : Side} {values : Values} (tree : Tree) {text : String}
    (h : render side values tree = .ok text) :
    ∃ choices captured, Tree.Derives side tree text.toList choices captured := by
  cases tree with
  | sequence parts =>
    unfold render at h
    obtain ⟨choices, captured, hparts⟩ := exists_derivesAll_of_renderAll parts h
    exact ⟨choices, captured, .sequence hparts⟩
  | literal own =>
    unfold render at h
    cases h
    exact ⟨[], [], .literal (List.forall₂_same.2 fun c _ => by cases side <;> exact beq_self_eq_true _)⟩
  | «variable» name calls default =>
    unfold render at h
    obtain ⟨hne, hfit⟩ := variableText_eq_ok h
    exact ⟨_, _, .variable hne hfit⟩
  | optional parts =>
    unfold render at h
    split at h
    · obtain ⟨choices, captured, hparts⟩ := exists_derivesAll_of_renderAll parts h
      exact ⟨_, _, .taken hparts⟩
    · cases h
      exact ⟨_, _, .skipped⟩

/-- What is written for some parts can be derived from them. -/
theorem exists_derivesAll_of_renderAll {side : Side} {values : Values} (parts : List Tree)
    {text : String} (h : renderAll side values parts = .ok text) :
    ∃ choices captured, DerivesAll side parts text.toList choices captured := by
  cases parts with
  | nil =>
    unfold renderAll at h
    cases h
    exact ⟨_, _, .nil⟩
  | cons part parts =>
    unfold renderAll at h
    cases hpart : render side values part with
    | error e =>
      rw [hpart] at h
      cases h
    | ok first =>
      rw [hpart] at h
      obtain ⟨rest, hparts, rfl⟩ := exists_of_map_eq_ok h
      obtain ⟨choices, captured, hfirst⟩ := exists_derives_of_render part hpart
      obtain ⟨choices', captured', hrest⟩ := exists_derivesAll_of_renderAll parts hparts
      rw [String.toList_append]
      exact ⟨_, _, .cons hfirst hrest⟩

end

/-- The host that is generated can be derived, and without a host in the template every host can. -/
theorem IsCompiled.exists_derivesHost {book : RuleBook} {template : Template}
    (h : template.IsCompiled book) {values : Values} {generated : Option String}
    (hhost : template.buildHost values = .ok generated) (other : String) :
    ∃ choices captured, DerivesHost template.hostTree? (generated.getD other).toList choices captured := by
  rw [hostTree?]
  rw [buildHost] at hhost
  cases hside : template.host with
  | none => exact ⟨_, _, .any _⟩
  | some side =>
    rw [hside] at hhost
    obtain ⟨text, hrender, rfl⟩ := exists_of_map_eq_ok hhost
    obtain ⟨parts, htree, -⟩ := grammatical_of_parse (h.host side hside)
    rw [htree, Tree.parts] at hrender
    obtain ⟨choices, captured, hderives⟩ := exists_derivesAll_of_renderAll parts hrender
    rw [Option.map_some, htree]
    exact ⟨_, _, .own (.sequence hderives)⟩

/-- A host and a path that were generated are matched, or a rule refuses them, if the path starts with
one slash only. Without a host in the template any host will do in which no separator stands. -/
theorem extract_generated {book : RuleBook} {path : String} {host : Option String}
    {template : Template} (h : compile book path host = .ok template) {values : Values} {uri : String}
    (hpath : template.buildPath values = .ok uri) {generated : Option String}
    (hhost : template.buildHost values = .ok generated) (hslash : ¬ ['/', '/'] <+: uri.toList)
    {other : String} (hother : separator ∉ other.toList) :
    template.extract (subject (generated.getD other) uri) ≠ .unmatched := by
  obtain ⟨-, -, hcompiled⟩ := compile_eq_ok h
  obtain ⟨parts, htree, -⟩ := grammatical_of_parse hcompiled.path
  rw [buildPath, htree, Tree.parts] at hpath
  obtain ⟨text, hrender, rfl⟩ := exists_of_map_eq_ok hpath
  obtain ⟨choices', captured', hderives⟩ := exists_derivesAll_of_renderAll parts hrender
  obtain ⟨choices, captured, hhostDerives⟩ := hcompiled.exists_derivesHost hhost other
  have hstrip : stripSlashes ("/" ++ text) = text := by
    apply stripSlashes_append
    intro hhead
    obtain ⟨rest, hrest⟩ := List.head?_eq_some_iff.1 hhead
    exact hslash ⟨rest, by rw [String.toList_append, hrest]; rfl⟩
  have hfree : template.hostTree? = none → separator ∉ (generated.getD other).toList := by
    intro hnone
    rw [hostTree?, Option.map_eq_none_iff] at hnone
    rw [buildHost, hnone] at hhost
    cases hhost
    exact hother
  have hpathDerives := Tree.Derives.sequence hderives
  rw [← htree] at hpathDerives
  have hcovers : template.Covers (subject (generated.getD other) ("/" ++ text)).toList
      (captured ++ captured') := by
    rw [toList_subject, hstrip]
    exact .intro hfree hhostDerives hpathDerives
  obtain ⟨captures, hsearch⟩ := hcompiled.exists_search_of_covers hcovers
  rw [extract, hsearch]
  exact readVariables_ne_unmatched captures template.vars

theorem extract_generated_host : ∃ template,
    compile .standard "/a/:x[/:y]" (some ":h.b") = .ok template
      ∧ template.buildPath [("h", .string "w"), ("x", .string "1")] = .ok "/a/1"
      ∧ template.buildHost [("h", .string "w"), ("x", .string "1")] = .ok (some "w.b")
      ∧ template.extract (subject "w.b" "/a/1") ≠ .unmatched := by
  have hcompile := @compile_of_parse .standard "/a/:x[/:y]"
    (.sequence [.literal "a/", .variable "x" [] none, .optional [.literal "/", .variable "y" [] none]])
    (some ⟨":h.b", .sequence [.variable "h" [] none, .literal ".b"]⟩)
    [⟨"h", [], [], none, false, .string⟩, ⟨"x", [], [], none, false, .string⟩,
      ⟨"y", [], [], none, true, .string⟩]
    (by cbv) (by rintro side ⟨⟩; cbv) (by cbv) (by decide) (by decide +kernel)
  refine ⟨_, hcompile, rfl, rfl, ?_⟩
  exact @extract_generated _ _ _ _ hcompile [("h", .string "w"), ("x", .string "1")] _ rfl (some "w.b")
    rfl (by decide) "" (by decide)

/-- A template that does not start with an optional segment generates paths with one slash in front. -/
theorem not_isPrefix_of_buildPath {book : RuleBook} {path : String} {host : Option String}
    {template : Template} (h : compile book path host = .ok template)
    (hstart : ∀ inner rest, template.path.tree.parts ≠ .optional inner :: rest) {values : Values}
    {uri : String} (hpath : template.buildPath values = .ok uri) : ¬ ['/', '/'] <+: uri.toList := by
  obtain ⟨htext, -, hcompiled⟩ := compile_eq_ok h
  obtain ⟨parts, htree, hfirst⟩ := exists_parts_of_parse hcompiled.path (htext ▸ head?_stripSlashes _)
  obtain ⟨_, hsame, hgrammatical⟩ := grammatical_of_parse hcompiled.path
  obtain rfl := Tree.sequence.inj (htree.symm.trans hsame)
  simp only [htree, Tree.parts] at hstart
  rw [buildPath, htree, Tree.parts] at hpath
  obtain ⟨text, hrender, rfl⟩ := exists_of_map_eq_ok hpath
  obtain ⟨choices, captured, hderives⟩ := exists_derivesAll_of_renderAll parts hrender
  have hsequence : ∀ inner rest, parts ≠ .sequence inner :: rest := by
    rintro inner rest rfl
    cases hgrammatical.part _ List.mem_cons_self
  rintro ⟨rest, hrest⟩
  apply head?_ne_slash_of_derivesAll hfirst hstart hsequence hderives
  rw [String.toList_append] at hrest
  have htail : '/' :: rest = text.toList := List.tail_eq_of_cons_eq hrest
  rw [← htail, List.head?_cons]

/-- Where an optional segment and what follows it start with a slash, every derived text does. -/
theorem head?_of_derivesAll_optional {own own' : String} {inner rest : List Tree}
    (hown : own.toList.head? = some '/') (hown' : own'.toList.head? = some '/') {text : List Char}
    {choices : List Nat} {captured : List (String × List Char)}
    (h : DerivesAll .path (.optional (.literal own :: inner) :: .literal own' :: rest) text choices
      captured) : text.head? = some '/' := by
  cases h with
  | cons hfirst hrest =>
    cases hfirst with
    | taken hinner =>
      rw [List.head?_append, head?_of_derivesAll_literal hown hinner]
      rfl
    | skipped =>
      rw [List.nil_append]
      exact head?_of_derivesAll_literal hown' hrest

/-- A template whose path starts with a slash, whether or not its first segment is left out, matches no
request: a request has lost the slashes in front. -/
theorem IsCompiled.extract_eq_unmatched {book : RuleBook} {template : Template}
    (h : template.IsCompiled book) (hhost : Separable template.hostTree?) {own own' : String}
    {inner rest : List Tree}
    (hparts : template.path.tree = .sequence (.optional (.literal own :: inner) :: .literal own' :: rest))
    (hown : own.toList.head? = some '/') (hown' : own'.toList.head? = some '/')
    {host : String} (hreq : separator ∉ host.toList) (path : String) :
    template.extract (subject host path) = .unmatched := by
  have hanswers := @IsCompiled.answers_search _ _ h hhost host path hreq
  cases hsearch : template.pattern.search (subject host path) with
  | none => rw [extract, hsearch]
  | some captures =>
    rw [hsearch] at hanswers
    obtain ⟨_, _, ⟨hderives, -⟩, -⟩ := hanswers
    cases hderives with
    | intro _ hpath =>
      rw [hparts] at hpath
      cases hpath with
      | sequence hpath =>
        exact absurd (head?_of_derivesAll_optional hown hown' hpath) (head?_stripSlashes path)

/-- A path that was generated with two slashes in front need not be matched by its template. -/
theorem extract_generated_slashes : ∃ template,
    compile .standard "/[/:x]/b" none = .ok template
      ∧ template.buildPath [("x", .string "a")] = .ok "//a/b"
      ∧ template.buildHost [("x", .string "a")] = .ok none
      ∧ template.extract (subject "h" "//a/b") = .unmatched := by
  have hcompile := @compile_of_parse .standard "/[/:x]/b"
    (.sequence [.optional [.literal "/", .variable "x" [] none], .literal "/b"])
    none [⟨"x", [], [], none, true, .string⟩]
    (by cbv) (by rintro side ⟨⟩) (by cbv) (by decide) (by decide +kernel)
  refine ⟨_, hcompile, rfl, rfl, ?_⟩
  obtain ⟨-, -, hcompiled⟩ := compile_eq_ok hcompile
  exact hcompiled.extract_eq_unmatched (by simp [Separable, hostTree?]) rfl rfl rfl (by decide) _

end Template

end UriRouting
