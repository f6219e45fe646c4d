import UriRouting.Declaration
import UriRouting.Proofs.Template.PatternNode
/-!
# What a compiled template is

The names of variables in a tree are names, and the characters of its literals come from the text that
the tree was read from. A template that was compiled has the trees of its texts, their variables, no
two of one name, and their pattern.

Main statements: `made_of_parse`, `compile_eq_ok`, `IsCompiled.node_eq` and
`Declaration.compile_eq_ok_iff`.
-/

namespace UriRouting

namespace Tree

/-- A tree that can have been read from a text. -/
inductive Made (source : List Char) : Tree → Prop where
  | sequence {parts : List Tree} (h : ∀ part ∈ parts, Made source part) :
      Made source (.sequence parts)
  /-- The characters of a literal stand in the text. -/
  | literal {own : String} (h : ∀ c ∈ own.toList, c ∈ source) : Made source (.literal own)
  /-- A variable has a name. -/
  | variable {name : String} {calls : List RuleCall} {default : Option String}
      (h : IsName name.toList) : Made source (.variable name calls default)
  /-- An optional segment holds something. -/
  | optional {parts : List Tree} (hne : parts ≠ []) (h : ∀ part ∈ parts, Made source part) :
      Made source (.optional parts)

end Tree

/-- A token that can have been read from a text, as far as trees keep what it holds. -/
def Token.ComesFrom (source : List Char) : Token → Prop
  | .text run => ∀ c ∈ run.toList, c ∈ source
  | .slash => '/' ∈ source
  | .identifier name => IsName name.toList
  | _ => True

/-- What was mapped from a result is a result of something. -/
theorem exists_of_map_eq_ok {ε α β : Type} {f : α → β} {x : Except ε α} {b : β}
    (h : x.map f = .ok b) : ∃ a, x = .ok a ∧ f a = b := by
  cases x with
  | error e => cases h
  | ok a => exact ⟨a, rfl, Except.ok.inj h⟩

/-- A pattern is kept with the text that it was read from. -/
theorem source_of_ofSource {source : String} {pattern : Pattern}
    (h : Pattern.ofSource source = .ok pattern) : pattern.source = source := by
  unfold Pattern.ofSource at h
  obtain ⟨node, -, rfl⟩ := exists_of_map_eq_ok h
  rfl

/-- A text that was read is a pattern if it is within both limits. -/
theorem ofSource_of_finish {source : String} {node : Pattern.Node}
    (h : Pattern.Progress.finish {} source.toList = .ok node) (hdepth : node.nesting ≤ Pattern.maxNesting)
    (hsize : node.compiledSize ≤ Pattern.maxSize) : Pattern.ofSource source = .ok ⟨source, node⟩ := by
  rw [Pattern.ofSource, Pattern.Node.parse, h]
  simp only [Pattern.Node.limited, if_neg (Nat.not_lt_of_le hdepth), if_neg (Nat.not_lt_of_le hsize)]
  rfl

namespace Template

open UriRouting.Tree

/-! ## What is left over -/

theorem takeName?_eq_some {cs name rest : List Char} (h : takeName? cs = some (name, rest)) :
    IsName name ∧ rest <:+ cs := by
  cases cs with
  | nil => cases h
  | cons c cs =>
    rw [takeName?] at h
    split at h
    · rename_i hstart
      cases h
      refine ⟨⟨c, _, rfl, hstart, List.all_takeWhile⟩, ?_⟩
      exact (List.dropWhile_suffix _).trans (List.suffix_cons _ _)
    · cases h

theorem suffix_of_readQuoted {cs text rest : List Char} (h : readQuoted cs = some (text, rest)) :
    rest <:+ cs := by
  fun_induction readQuoted cs generalizing text with
  | case1 => cases h
  | case2 rest' =>
    cases h
    exact List.suffix_cons _ _
  | case3 rest' ih | case4 rest' ih =>
    obtain ⟨⟨t, r⟩, hr, heq⟩ := Option.map_eq_some_iff.1 h
    cases heq
    exact (ih hr).trans ((List.suffix_cons _ _).trans (List.suffix_cons _ _))
  | case5 c rest' _ _ _ ih =>
    obtain ⟨⟨t, r⟩, hr, heq⟩ := Option.map_eq_some_iff.1 h
    cases heq
    exact (ih hr).trans (List.suffix_cons _ _)

theorem suffix_readArguments (cs : List Char) : (readArguments cs).2 <:+ cs := by
  fun_induction readArguments cs with
  | case1 => exact List.nil_suffix
  | case2 cs c rest h => exact h ▸ List.dropWhile_suffix _
  | case3 cs c rest h =>
    exact (List.suffix_cons c rest).trans (h ▸ List.dropWhile_suffix Text.isAsciiBlank)
  | case4 cs c rest h _ _ _ ih =>
    exact (ih.trans (List.suffix_cons c rest)).trans (h ▸ List.dropWhile_suffix Text.isAsciiBlank)
  | case5 => exact List.nil_suffix
  | case6 cs c rest h _ _ _ _ text rest' hq values left he ih =>
    rw [he] at ih
    exact ((ih.trans (suffix_of_readQuoted hq)).trans (List.suffix_cons c rest)).trans
      (h ▸ List.dropWhile_suffix Text.isAsciiBlank)
  | case7 cs c rest h _ _ _ _ word values left he ih =>
    rw [he] at ih
    exact ((ih.trans (List.dropWhile_suffix _)).trans (List.suffix_cons c rest)).trans
      (h ▸ List.dropWhile_suffix Text.isAsciiBlank)

/-- A step leaves an end of the text. -/
theorem suffix_step (mode : Mode) (c : Char) (cs : List Char) : (step mode c cs).rest <:+ c :: cs := by
  have hcons := List.suffix_cons c cs
  cases mode with
  | segments =>
    simp only [step]
    repeat' split
    all_goals first | exact hcons | skip
    · rename_i name rest h
      exact (takeName?_eq_some h).2.trans hcons
    · exact (List.dropWhile_suffix _).trans hcons
  | named =>
    simp only [step]
    split
    · exact hcons
    · exact List.suffix_rfl
  | default =>
    simp only [step]
    repeat' split
    · exact hcons
    · exact (List.dropWhile_suffix _).trans hcons
    · exact List.suffix_rfl
  | rules =>
    simp only [step]
    split
    · exact hcons
    split
    · exact hcons
    split
    · exact hcons
    split
    · exact List.suffix_rfl
    rename_i name rest h
    have hrest := (takeName?_eq_some h).2
    split
    · rename_i more
      have hmore := (suffix_readArguments more).trans ((List.suffix_cons _ _).trans hrest)
      split
      · rename_i values left he
        rwa [he] at hmore
      · rename_i left he
        rwa [he] at hmore
    · exact hrest

/-! ## Tokens -/

theorem comesFrom_identifier {source name : List Char} (h : IsName name) :
    (Token.identifier (String.ofList name)).ComesFrom source := by
  rw [Token.ComesFrom, String.toList_ofList]
  exact h

theorem comesFrom_text {source run : List Char} (h : run ⊆ source) :
    (Token.text (String.ofList run)).ComesFrom source := by
  rw [Token.ComesFrom, String.toList_ofList]
  exact fun c hc => h hc

/-- A token comes from the text that its step reads. -/
theorem comesFrom_of_mem_step {mode : Mode} {c : Char} {cs source : List Char}
    (hsource : c :: cs ⊆ source) :
    ∀ entry ∈ (step mode c cs).tokens, entry.1.ComesFrom source := by
  obtain ⟨hc, hcs⟩ := List.cons_subset.1 hsource
  cases mode with
  | segments =>
    simp only [step]
    split
    · split
      · rename_i name rest h
        exact List.forall_mem_cons.2 ⟨trivial,
          List.forall_mem_singleton.2 (comesFrom_identifier (takeName?_eq_some h).1)⟩
      · exact List.forall_mem_singleton.2 trivial
    split
    · exact List.forall_mem_singleton.2 trivial
    split
    · exact List.forall_mem_singleton.2 trivial
    split
    · rename_i hslash
      rw [beq_iff_eq] at hslash
      exact List.forall_mem_singleton.2 (show '/' ∈ source from hslash ▸ hc)
    · refine List.forall_mem_singleton.2 (comesFrom_text ?_)
      exact List.cons_subset.2 ⟨hc, List.Subset.trans (List.takeWhile_subset _) hcs⟩
  | named =>
    simp only [step]
    split
    · exact List.forall_mem_singleton.2 trivial
    · exact List.forall_mem_nil _
  | default =>
    simp only [step]
    split
    · split
      · exact List.forall_mem_singleton.2 trivial
      · refine List.forall_mem_cons.2 ⟨trivial, List.forall_mem_singleton.2 (comesFrom_text ?_)⟩
        exact List.Subset.trans (List.takeWhile_subset _) hcs
    · exact List.forall_mem_nil _
  | rules =>
    simp only [step]
    split
    · exact List.forall_mem_nil _
    split
    · exact List.forall_mem_singleton.2 trivial
    split
    · exact List.forall_mem_singleton.2 trivial
    split
    · exact List.forall_mem_nil _
    rename_i name rest h
    have hname : (Token.identifier (String.ofList name)).ComesFrom source :=
      comesFrom_identifier (takeName?_eq_some h).1
    split
    · split
      · exact List.forall_mem_cons.2 ⟨hname, List.forall_mem_singleton.2 trivial⟩
      · exact List.forall_mem_singleton.2 hname
    · exact List.forall_mem_singleton.2 hname

theorem comesFrom_of_mem_scan {total : Nat} {mode : Mode} {cs source : List Char}
    (hsource : cs ⊆ source) : ∀ lexeme ∈ scan total mode cs, lexeme.token.ComesFrom source := by
  fun_induction scan total mode cs with
  | case1 => simp [Token.ComesFrom]
  | case2 mode c cs next ih =>
    rw [List.forall_mem_append, List.forall_mem_map]
    exact ⟨comesFrom_of_mem_step hsource, ih (List.Subset.trans (suffix_step mode c cs).subset hsource)⟩

/-! ## Trees -/

theorem suffix_takeArguments (ts : List Lexeme) : (takeArguments ts).2 <:+ ts := by
  fun_cases takeArguments ts with
  | case1 => exact List.suffix_cons _ _
  | case2 => exact List.suffix_rfl

theorem suffix_of_readRules {last : Nat} {ts left : List Lexeme} {calls : List RuleCall}
    (h : readRules last ts = .ok (calls, left)) : left <:+ ts := by
  fun_induction readRules last ts generalizing calls left with
  | case1 =>
    rename_i rest call _ more ht calls' left' he ih
    cases h
    have hmore := suffix_takeArguments rest
    rw [ht] at hmore
    exact (((ih he).trans (List.suffix_cons _ _)).trans hmore).trans (List.suffix_cons _ _)
  | case2 => cases h
  | case3 =>
    rename_i rest _ _ more ht
    cases h
    have hmore := suffix_takeArguments rest
    rw [ht] at hmore
    exact ((List.suffix_cons _ _).trans hmore).trans (List.suffix_cons _ _)
  | case4 => cases h
  | case5 => cases h

theorem suffix_of_readRuleList {last : Nat} {ts left : List Lexeme} {calls : List RuleCall}
    (h : readRuleList last ts = .ok (calls, left)) : left <:+ ts := by
  fun_cases readRuleList last ts with
  | case1 => exact (suffix_of_readRules h).trans (List.suffix_cons _ _)
  | case2 =>
    simp only [readRuleList, Except.ok.injEq, Prod.mk.injEq] at h
    exact h.2 ▸ List.suffix_rfl

theorem suffix_of_readDefault {last : Nat} {ts left : List Lexeme} {default : Option String}
    (h : readDefault last ts = .ok (default, left)) : left <:+ ts := by
  fun_cases readDefault last ts with
  | case1 =>
    cases h
    exact (List.suffix_cons _ _).trans (List.suffix_cons _ _)
  | case2 => simp_all [readDefault]
  | case3 =>
    simp only [readDefault, Except.ok.injEq, Prod.mk.injEq] at h
    exact h.2 ▸ List.suffix_rfl

/-- A variable has a name, and leaves an end of the tokens. -/
theorem readVariable_eq_ok {last : Nat} {ts left : List Lexeme} {tree : Tree} {source : List Char}
    (h : readVariable last ts = .ok (tree, left))
    (hsource : ∀ lexeme ∈ ts, lexeme.token.ComesFrom source) : Made source tree ∧ left <:+ ts := by
  fun_cases readVariable last ts with
  | case1 p name rest =>
    simp only [readVariable, bind, Except.bind, pure, Except.pure] at h
    split at h
    · cases h
    · rename_i r hr
      split at h
      · cases h
      · rename_i d hd
        cases h
        refine ⟨.variable (hsource _ List.mem_cons_self), ?_⟩
        exact ((suffix_of_readDefault hd).trans (suffix_of_readRuleList hr)).trans
          (List.suffix_cons _ _)
  | case2 => simp_all [readVariable]

/-- Adding literal text that stands in the source. -/
theorem made_addLiteral {source : List Char} {text : String} {parts : List Tree}
    (htext : ∀ c ∈ text.toList, c ∈ source) (hparts : ∀ part ∈ parts, Made source part) :
    ∀ part ∈ addLiteral text parts, Made source part := by
  fun_cases addLiteral text parts with
  | case1 before parts =>
    obtain ⟨hbefore, hparts⟩ := List.forall_mem_cons.1 hparts
    refine List.forall_mem_cons.2 ⟨.literal ?_, hparts⟩
    cases hbefore with
    | literal hbefore =>
      rw [String.toList_append, List.forall_mem_append]
      exact ⟨hbefore, htext⟩
  | case2 => exact List.forall_mem_cons.2 ⟨.literal htext, hparts⟩

theorem made_of_readSegments {source : List Char} {last : Nat} {segments : List OpenSegment}
    {parts : List Tree} {ts : List Lexeme} {tree : Tree}
    (h : readSegments last segments parts ts = .ok tree)
    (hsource : ∀ lexeme ∈ ts, lexeme.token.ComesFrom source)
    (hparts : ∀ part ∈ parts, Made source part)
    (hsegments : ∀ segment ∈ segments, ∀ part ∈ segment.before, Made source part) :
    Made source tree := by
  have hreverse : ∀ parts : List Tree, (∀ part ∈ parts, Made source part) →
      ∀ part ∈ parts.reverse, Made source part :=
    fun parts hparts part hpart => hparts part (List.mem_reverse.1 hpart)
  fun_induction readSegments last segments parts ts with
  | case1 segments parts | case2 segments parts =>
    cases segments with
    | nil =>
      cases h
      exact .sequence (hreverse parts hparts)
    | cons => cases h
  | case3 segments parts text position rest ih =>
    obtain ⟨htext, hrest⟩ := List.forall_mem_cons.1 hsource
    exact ih h hrest (made_addLiteral htext hparts) hsegments
  | case4 segments parts position rest ih =>
    obtain ⟨hslash, hrest⟩ := List.forall_mem_cons.1 hsource
    refine ih h hrest (made_addLiteral ?_ hparts) hsegments
    intro c hc
    rw [List.mem_singleton.1 hc]
    exact hslash
  | case5 segments parts position rest tree left hread ih =>
    obtain ⟨-, hrest⟩ := List.forall_mem_cons.1 hsource
    obtain ⟨hmade, hsuffix⟩ := readVariable_eq_ok hread hrest
    simp only at h
    split at h
    · rename_i hread'
      rw [hread] at hread'
      cases hread'
      exact ih h (fun lexeme hl => hrest lexeme (hsuffix.subset hl))
        (List.forall_mem_cons.2 ⟨hmade, hparts⟩) hsegments
    · cases h
  | case6 segments parts position rest fault hread =>
    simp only at h
    split at h
    · rename_i hread'
      rw [hread] at hread'
      cases hread'
    · cases h
  | case7 segments parts position rest hlt ih =>
    simp only [hlt, if_true] at h
    obtain ⟨-, hrest⟩ := List.forall_mem_cons.1 hsource
    exact ih h hrest (List.forall_mem_nil _) (List.forall_mem_cons.2 ⟨hparts, hsegments⟩)
  | case8 segments parts position rest hlt =>
    simp only [hlt, if_false] at h
    cases h
  | case9 => cases h
  | case10 => cases h
  | case11 position rest segment outer parts hparts' ih =>
    obtain ⟨-, hrest⟩ := List.forall_mem_cons.1 hsource
    obtain ⟨hsegment, houter⟩ := List.forall_mem_cons.1 hsegments
    refine ih ?_ hrest ?_ houter
    · simpa using h
    · refine List.forall_mem_cons.2 ⟨.optional ?_ ?_, hsegment⟩
      · simpa using hparts'
      · simpa using hparts
  | case12 => simp_all

/-- What is read from a text is made from it. -/
theorem made_of_parse {text : String} {tree : Tree} (h : Tree.parse text = .ok tree) :
    Made text.toList tree := by
  refine made_of_readSegments h ?_ (by simp) (by simp)
  exact comesFrom_of_mem_scan (List.Subset.refl _)

/-! ## Compiled templates -/

/-- The tree of the host, if the template has one. -/
def hostTree? (template : Template) : Option Tree :=
  template.host.map (·.tree)

/-- The variables of the trees, those of the host first. -/
def allSites (template : Template) : List Site :=
  (template.host.map fun side => sites false side.tree).getD [] ++ sites false template.path.tree

/-- A template has the trees of its texts, and their variables. -/
structure IsRead (book : RuleBook) (template : Template) : Prop where
  /-- The path is the tree of its text. -/
  path : Tree.parse template.path.text = .ok template.path.tree
  /-- The host is the tree of its text. -/
  host : ∀ side ∈ template.host, Tree.parse side.text = .ok side.tree
  /-- The variables are those of the trees. -/
  vars : compileSites book [] template.allSites = .ok template.vars

/-- What compilation makes sure of. -/
structure IsCompiled (book : RuleBook) (template : Template) : Prop
    extends IsRead book template where
  /-- The pattern is that of the trees. -/
  pattern : Pattern.ofSource (patternSource template.path.tree template.hostTree?)
    = .ok template.pattern

theorem parseSide_eq_ok {text : String} {side : TemplateSide} (h : parseSide text = .ok side) :
    side.text = text ∧ Tree.parse side.text = .ok side.tree := by
  unfold parseSide at h
  split at h
  · rename_i tree htree
    cases h
    exact ⟨rfl, htree⟩
  · cases h

theorem map_parseSide_eq_ok {text : String} {host : Option TemplateSide}
    (h : (parseSide text).map some = .ok host) :
    host.map (·.text) = some text ∧ ∀ side ∈ host, Tree.parse side.text = .ok side.tree := by
  obtain ⟨side, hside, rfl⟩ := exists_of_map_eq_ok h
  obtain ⟨htext, hparse⟩ := parseSide_eq_ok hside
  refine ⟨congrArg some htext, ?_⟩
  rintro _ ⟨⟩
  exact hparse

/-- A template that was compiled is a compiled template of the given texts. -/
theorem compile_eq_ok {book : RuleBook} {path : String} {host : Option String} {template : Template}
    (h : compile book path host = .ok template) :
    template.path.text = stripSlashes path ∧ template.host.map (·.text) = host
      ∧ template.IsCompiled book := by
  cases host with
  | none =>
    simp only [compile, bind, Except.bind, pure, Except.pure] at h
    split at h
    · cases h
    rename_i pathSide hpath
    obtain ⟨htext, hparse⟩ := parseSide_eq_ok hpath
    split at h
    · cases h
    rename_i vars hvars
    split at h
    · rename_i pattern hpattern
      cases h
      exact ⟨htext, rfl, ⟨hparse, by simp, hvars⟩, hpattern⟩
    · cases h
  | some text =>
    simp only [compile, bind, Except.bind, pure, Except.pure] at h
    split at h
    · cases h
    rename_i pathSide hpath
    obtain ⟨htext, hparse⟩ := parseSide_eq_ok hpath
    split at h
    · cases h
    rename_i hostSide hhost
    obtain ⟨hhostText, hhostParse⟩ := map_parseSide_eq_ok hhost
    split at h
    · cases h
    rename_i vars hvars
    split at h
    · rename_i pattern hpattern
      cases h
      exact ⟨htext, hhostText, ⟨hparse, hhostParse, hvars⟩, hpattern⟩
    · cases h

/-- A compiled site has the parts of the site, its name is new, its rules are made, and its default
satisfies them. -/
theorem compileSite_eq_ok {book : RuleBook} {seen : List String} {site : Site} {v : Variable}
    (h : compileSite book seen site = .ok v) :
    site.name ∉ seen ∧ resolveRules book site.name site.calls = .ok v.rules
      ∧ (∀ text ∈ site.default, ∀ rule ∈ v.rules, rule.passes text = true)
      ∧ v = ⟨site.name, site.calls, v.rules, site.default, site.optional, valueType v.rules⟩ := by
  unfold compileSite at h
  split at h
  · cases h
  rename_i hfresh
  split at h
  · cases h
  rename_i rules hrules
  split at h
  · cases h
  rename_i hdefault
  cases h
  rw [Option.filter_eq_none_iff] at hdefault
  refine ⟨?_, hrules, ?_, rfl⟩
  · intro hmem
    exact hfresh (List.contains_iff_mem.2 hmem)
  · intro text htext
    simpa using hdefault text htext

theorem compileSites_cons_eq_ok {book : RuleBook} {seen : List String} {site : Site}
    {places : List Site} {vars : List Variable}
    (h : compileSites book seen (site :: places) = .ok vars) :
    ∃ v rest, vars = v :: rest ∧ compileSite book seen site = .ok v
      ∧ compileSites book (site.name :: seen) places = .ok rest := by
  unfold compileSites at h
  split at h
  · cases h
  rename_i v hv
  obtain ⟨rest, hrest, rfl⟩ := exists_of_map_eq_ok h
  exact ⟨v, rest, rfl, hv, hrest⟩

/-- The variables of compiled sites have the names of the sites, and no name comes twice or was seen
before. -/
theorem names_of_compileSites {book : RuleBook} {seen : List String} {places : List Site}
    {vars : List Variable} (h : compileSites book seen places = .ok vars) :
    vars.map (·.name) = places.map (·.name) ∧ (places.map (·.name)).Nodup
      ∧ ∀ name ∈ places.map (·.name), name ∉ seen := by
  induction places generalizing seen vars with
  | nil =>
    cases h
    simp
  | cons site places ih =>
    obtain ⟨v, rest, rfl, hv, hrest⟩ := compileSites_cons_eq_ok h
    obtain ⟨hnames, hnodup, hseen⟩ := ih hrest
    obtain ⟨hfresh, -, -, hparts⟩ := compileSite_eq_ok hv
    refine ⟨?_, ?_, ?_⟩
    · rw [List.map_cons, List.map_cons, hnames, hparts]
    · rw [List.map_cons, List.nodup_cons]
      exact ⟨fun hmem => hseen _ hmem List.mem_cons_self, hnodup⟩
    · rw [List.map_cons, List.forall_mem_cons]
      exact ⟨hfresh, fun name hname hmem => hseen name hname (List.mem_cons_of_mem _ hmem)⟩

/-- Every compiled variable comes from a site. -/
theorem exists_compileSite_of_mem {book : RuleBook} {seen : List String} {places : List Site}
    {vars : List Variable} (h : compileSites book seen places = .ok vars) {v : Variable} (hv : v ∈ vars) :
    ∃ seen' site, site ∈ places ∧ compileSite book seen' site = .ok v := by
  induction places generalizing seen vars with
  | nil =>
    cases h
    cases hv
  | cons site places ih =>
    obtain ⟨first, rest, rfl, hfirst, hrest⟩ := compileSites_cons_eq_ok h
    rcases List.mem_cons.1 hv with rfl | hv
    · exact ⟨seen, site, List.mem_cons_self, hfirst⟩
    · obtain ⟨seen', site', hsite', hmade⟩ := ih hrest hv
      exact ⟨seen', site', List.mem_cons_of_mem _ hsite', hmade⟩

/-- A compiled variable has the rules that it calls for, and its default satisfies them. -/
theorem rules_of_compileSites {book : RuleBook} {seen : List String} {places : List Site}
    {vars : List Variable} (h : compileSites book seen places = .ok vars) :
    ∀ v ∈ vars, resolveRules book v.name v.calls = .ok v.rules
      ∧ ∀ text ∈ v.default, ∀ rule ∈ v.rules, rule.passes text = true := by
  intro v hv
  obtain ⟨_, site, -, hmade⟩ := exists_compileSite_of_mem h hv
  obtain ⟨-, hrules, hdefault, hparts⟩ := compileSite_eq_ok hmade
  rw [hparts]
  exact ⟨hrules, hdefault⟩

/-- The type of a compiled variable is the one that its rules give. -/
theorem type_of_compileSites {book : RuleBook} {seen : List String} {places : List Site}
    {vars : List Variable} (h : compileSites book seen places = .ok vars) :
    ∀ v ∈ vars, v.type = valueType v.rules := by
  intro v hv
  obtain ⟨_, _, -, hmade⟩ := exists_compileSite_of_mem h hv
  obtain ⟨-, -, -, hparts⟩ := compileSite_eq_ok hmade
  rw [hparts]

mutual

theorem map_name_sites (optional : Bool) (tree : Tree) :
    (sites optional tree).map (·.name) = tree.variableNames := by
  cases tree with
  | sequence parts =>
    rw [sites, Tree.variableNames]
    exact map_name_sitesOf optional parts
  | literal own => rfl
  | «variable» name calls default => rfl
  | optional parts =>
    rw [sites, Tree.variableNames]
    exact map_name_sitesOf true parts

theorem map_name_sitesOf (optional : Bool) (parts : List Tree) :
    (sitesOf optional parts).map (·.name) = variableNamesOf parts := by
  cases parts with
  | nil => rfl
  | cons part parts =>
    rw [sitesOf, variableNamesOf, List.map_append, map_name_sites, map_name_sitesOf]

end

mutual

/-- The variables of a tree that was read have names. -/
theorem isName_of_made {source : List Char} {tree : Tree} (h : Made source tree) :
    ∀ name ∈ tree.variableNames, IsName name.toList := by
  cases tree with
  | sequence parts =>
    cases h with
    | sequence h =>
      rw [Tree.variableNames]
      exact isName_of_allMade h
  | literal own => simp [Tree.variableNames]
  | «variable» name calls default =>
    cases h with
    | «variable» h =>
      rw [Tree.variableNames, List.forall_mem_singleton]
      exact h
  | optional parts =>
    cases h with
    | optional hne h =>
      rw [Tree.variableNames]
      exact isName_of_allMade h

/-- The variables of some parts that were read have names. -/
theorem isName_of_allMade {source : List Char} {parts : List Tree}
    (h : ∀ part ∈ parts, Made source part) : ∀ name ∈ variableNamesOf parts, IsName name.toList := by
  cases parts with
  | nil => simp [variableNamesOf]
  | cons part parts =>
    obtain ⟨hpart, hparts⟩ := List.forall_mem_cons.1 h
    rw [variableNamesOf, List.forall_mem_append]
    exact ⟨isName_of_made hpart, isName_of_allMade hparts⟩

end

namespace IsRead

variable {book : RuleBook} {template : Template}

/-- The variables have the names that stand in the trees. -/
theorem variableNames_eq (h : template.IsRead book) :
    template.variableNames = namesOf template.path.tree template.hostTree? := by
  rw [Template.variableNames, (names_of_compileSites h.vars).1, allSites, namesOf, hostTree?,
    List.map_append, map_name_sites]
  cases template.host with
  | none => rfl
  | some side =>
    simp only [Option.map_some, Option.getD_some, Option.elim_some]
    rw [map_name_sites]

/-- No name comes twice. -/
theorem nodup_names (h : template.IsRead book) :
    (namesOf template.path.tree template.hostTree?).Nodup := by
  rw [← h.variableNames_eq, Template.variableNames, (names_of_compileSites h.vars).1]
  exact (names_of_compileSites h.vars).2.1

/-- The names are names. -/
theorem isName (h : template.IsRead book) :
    ∀ name ∈ namesOf template.path.tree template.hostTree?, IsName name.toList := by
  rw [namesOf, List.forall_mem_append]
  refine ⟨?_, isName_of_made (made_of_parse h.path)⟩
  rw [hostTree?]
  cases hhost : template.host with
  | none => simp
  | some side => exact isName_of_made (made_of_parse (h.host side hhost))

end IsRead

/-- The pattern of a compiled template is that of its trees. -/
theorem IsCompiled.node_eq {book : RuleBook} {template : Template} (h : template.IsCompiled book) :
    template.pattern.node = patternNode template.path.tree template.hostTree? := by
  have hpattern := h.pattern
  rw [ofSource_patternSource h.isName h.nodup_names] at hpattern
  split at hpattern
  · cases hpattern
  split at hpattern
  · cases hpattern
  · rw [← Except.ok.inj hpattern]

/-- A template compiles if its texts can be read, its variables can be made, and its pattern is within
both limits. -/
theorem compile_of_parse {book : RuleBook} {path : String} {tree : Tree}
    {host : Option TemplateSide} {vars : List Variable}
    (hpath : Tree.parse (stripSlashes path) = .ok tree)
    (hhost : ∀ side ∈ host, Tree.parse side.text = .ok side.tree)
    (hvars : compileSites book []
      ((host.map fun side => sites false side.tree).getD [] ++ sites false tree) = .ok vars)
    (hdepth : (patternNode tree (host.map (·.tree))).nesting ≤ Pattern.maxNesting)
    (hsize : (patternNode tree (host.map (·.tree))).compiledSize ≤ Pattern.maxSize) :
    compile book path (host.map (·.text)) = .ok ⟨⟨stripSlashes path, tree⟩, host, vars,
      ⟨patternSource tree (host.map (·.tree)), patternNode tree (host.map (·.tree))⟩⟩ := by
  have hread : IsRead book ⟨⟨stripSlashes path, tree⟩, host, vars,
      ⟨patternSource tree (host.map (·.tree)), patternNode tree (host.map (·.tree))⟩⟩ :=
    ⟨hpath, hhost, hvars⟩
  have hpattern : Pattern.ofSource (patternSource tree (host.map (·.tree)))
      = .ok ⟨patternSource tree (host.map (·.tree)), patternNode tree (host.map (·.tree))⟩ :=
    ofSource_patternSource_of_le hread.isName hread.nodup_names hdepth hsize
  cases host with
  | none =>
    simp only [Option.map_none, Option.getD_none, List.nil_append] at hvars hpattern
    simp [compile, parseSide, hpath, hvars, hpattern, bind, Except.bind, pure, Except.pure]
  | some side =>
    simp only [Option.map_some, Option.getD_some] at hvars hpattern
    simp [compile, parseSide, hpath, hhost side rfl, hvars, hpattern, bind, Except.bind, pure,
      Except.pure, Except.map]

end Template

/-- A route with other variables. -/
def Route.withVars (route : Route) (vars : List Variable) : Route :=
  { route with template := { route.template with vars } }

/-- A declaration with an action makes the route of its template, and no other declaration makes one. -/
theorem Declaration.compile_eq_ok_iff {book : RuleBook} {declaration : Declaration} {route : Route} :
    declaration.compile book = .ok route
      ↔ ∃ action template, declaration.action = some action
        ∧ Template.compile book declaration.path declaration.host = .ok template
        ∧ route = ⟨declaration.methods, template, action, declaration.middleware, declaration.name,
            declaration.attributes, declaration.headers⟩ := by
  rw [Declaration.compile]
  cases haction : declaration.action with
  | none => simp
  | some action =>
    cases htemplate : Template.compile book declaration.path declaration.host with
    | error e => simp [Except.map]
    | ok template => simp [Except.map, eq_comm]

end UriRouting
