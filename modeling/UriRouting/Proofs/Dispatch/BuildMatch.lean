import UriRouting.Proofs.Dispatch.Decision
import UriRouting.Proofs.Template.Segments
import UriRouting.Template.Generation
/-!
# Matching a path that was built

A path that is built from values is derived from its template with the texts that were written. If the
path is in segments there is no other way to derive it, so a request for it gives back the values in the
types of their variables; a variable that was not written gives its default.

* `Template.emitted` lists the variables that are written from values, with their texts;
* `Template.derives_of_render` says that what is written can be derived;
* `RouteTable.dispatch_buildPath` says what a request for a path gives that was built from values.
-/

namespace UriRouting

open UriRouting.Tree

namespace Template

/-! ## What is written -/

mutual

/-- The variables of a tree that are written from values, with their texts, in order. -/
def emitted (values : Values) : Tree → List (String × String)
  | .sequence parts => emittedAll values parts
  | .literal _ => []
  | .variable name _ default =>
    match variableText .path values name default with
    | .ok text => [(name, text)]
    | .error _ => []
  | .optional parts => if isSupplied values parts then emittedAll values parts else []

/-- The variables of some parts that are written from values, with their texts, in order. -/
def emittedAll (values : Values) : List Tree → List (String × String)
  | [] => []
  | part :: parts => emitted values part ++ emittedAll values parts

end

/-- The values of a request for a path that was built from values: the texts that were written, and
else the defaults, each in the type of its variable. -/
def returned (values : Values) (template : Template) : List (String × Value) :=
  template.vars.filterMap fun v =>
    (((emitted values template.path.tree).lookup v.name).or v.default).map fun text =>
      (v.name, Value.coerce v.type text)

/-- Written texts as a derivation has them. -/
def spelled (entries : List (String × String)) : List (String × List Char) :=
  entries.map fun entry => (entry.1, entry.2.toList)

theorem lookup_spelled (entries : List (String × String)) (name : String) :
    ((spelled entries).lookup name).map String.ofList = entries.lookup name := by
  induction entries with
  | nil => rfl
  | cons entry entries ih =>
    obtain ⟨key, text⟩ := entry
    rw [spelled, List.map_cons, List.lookup_cons, List.lookup_cons]
    cases name == key with
    | true => simp
    | false => exact ih

/-- The text of a variable can be derived from it. -/
theorem variableText_eq_ok {side : Side} {values : Values} {name text : String}
    {default : Option String}
    (h : variableText side values name default = .ok text) :
    text.toList ≠ [] ∧ ∀ c ∈ text.toList, side.forbids c = false := by
  unfold variableText at h
  split at h
  · cases h
  rename_i given _
  split at h
  · cases h
  rename_i hfit
  cases h
  simp only [Bool.or_eq_true, not_or, Bool.not_eq_true] at hfit
  constructor
  · intro hnil
    rw [String.toList_eq_nil_iff] at hnil
    simp [hnil] at hfit
  · intro c hc
    exact Bool.eq_false_iff.2 fun hforbids =>
      absurd (List.any_eq_true.2 ⟨c, hc, hforbids⟩) (by simp [hfit.2])

mutual

/-- What is written for a tree can be derived from it, with the texts that were written. -/
theorem derives_of_render {values : Values} (tree : Tree) {text : String}
    (h : render .path values tree = .ok text) :
    ∃ choices, Tree.Derives .path tree text.toList choices (spelled (emitted values tree)) := by
  cases tree with
  | sequence parts =>
    unfold render at h
    obtain ⟨choices, hparts⟩ := derivesAll_of_renderAll parts h
    unfold emitted
    exact ⟨choices, .sequence hparts⟩
  | literal own =>
    unfold render at h
    cases h
    unfold emitted
    exact ⟨[], .literal (List.forall₂_same.2 fun c _ => beq_self_eq_true c)⟩
  | «variable» name calls default =>
    unfold render at h
    obtain ⟨hne, hfit⟩ := variableText_eq_ok h
    rw [emitted, h]
    exact ⟨_, .variable hne hfit⟩
  | optional parts =>
    unfold render at h
    unfold emitted
    split at h
    · rename_i hsupplied
      obtain ⟨choices, hparts⟩ := derivesAll_of_renderAll parts h
      rw [if_pos hsupplied]
      exact ⟨_, .taken hparts⟩
    · rename_i hsupplied
      cases h
      rw [if_neg hsupplied]
      exact ⟨_, .skipped⟩

/-- What is written for some parts can be derived from them, with the texts that were written. -/
theorem derivesAll_of_renderAll {values : Values} (parts : List Tree) {text : String}
    (h : renderAll .path values parts = .ok text) :
    ∃ choices, DerivesAll .path parts text.toList choices (spelled (emittedAll values parts)) := by
  cases parts with
  | nil =>
    unfold renderAll at h
    cases h
    exact ⟨[], .nil⟩
  | cons part parts =>
    unfold renderAll at h
    cases hpart : render .path values part with
    | error e =>
      rw [hpart] at h
      cases h
    | ok first =>
      rw [hpart] at h
      obtain ⟨rest, hparts, rfl⟩ := exists_of_map_eq_ok h
      obtain ⟨choices, hfirst⟩ := derives_of_render part hpart
      obtain ⟨choices', hrest⟩ := derivesAll_of_renderAll parts hparts
      rw [String.toList_append, emittedAll, spelled, List.map_append]
      exact ⟨_, .cons hfirst hrest⟩

end

/-! ## What is read back -/

/-- Variables are read if their texts satisfy their rules. -/
theorem readVariables_eq_matched {captures : Pattern.Captures} {vars : List Variable}
    (h : ∀ v ∈ vars, ∀ text ∈ v.text? captures, ∀ rule ∈ v.rules, rule.passes text = true) :
    readVariables captures vars = .matched (vars.filterMap fun v =>
      (v.text? captures).map fun text => (v.name, Value.coerce v.type text)) := by
  induction vars with
  | nil => rfl
  | cons v vars ih =>
    obtain ⟨hv, hvars⟩ := List.forall_mem_cons.1 h
    rw [readVariables, List.filterMap_cons]
    cases htext : v.text? captures with
    | none => simpa using ih hvars
    | some text =>
      have hpasses : v.failedRule? text = none := by
        rw [Variable.failedRule?, List.find?_eq_none]
        intro rule hrule
        simp [hv text htext rule hrule]
      simp [hpasses, ih hvars]

/-- A request for a path that was built is matched, and the groups capture the texts that were
written. -/
theorem IsCompiled.captures_buildPath {book : RuleBook} {template : Template}
    (h : template.IsCompiled book) (hhost : template.hostTree? = none)
    (hpath : template.path.text.toList.head? ≠ some '/')
    (hparts : Segmented template.path.tree.parts)
    (hstart : ∀ inner rest, template.path.tree.parts ≠ .optional inner :: rest)
    {values : Values} {uri : String} (hbuild : template.buildPath values = .ok uri)
    {host : String} (hreq : separator ∉ host.toList) :
    ∃ captures, template.extract (subject host uri) = readVariables captures template.vars
      ∧ ∀ name, captures.get? name = (emitted values template.path.tree).lookup name := by
  obtain ⟨parts, htree, hfirst⟩ := exists_parts_of_parse h.path hpath
  rw [htree, Tree.parts] at hparts
  simp only [htree, Tree.parts] at hstart
  rw [buildPath, htree, Tree.parts] at hbuild
  obtain ⟨text, hrender, rfl⟩ := exists_of_map_eq_ok hbuild
  -- what was written is derived from the path, and its first slash is stripped again
  obtain ⟨choices, hderives⟩ := derivesAll_of_renderAll parts hrender
  have hstrip : stripSlashes ("/" ++ text) = text :=
    stripSlashes_append (hparts.head?_ne_slash hfirst hstart hderives)
  have hhostDerives : DerivesHost template.hostTree? host.toList [] [] := hhost ▸ .any _
  have hpathDerives : Tree.Derives .path template.path.tree (stripSlashes ("/" ++ text)).toList choices
      (spelled (emittedAll values parts)) := by
    rw [hstrip, htree]
    exact .sequence hderives
  obtain ⟨captures, _, captured, hextract, hfavours, hget⟩ :=
    h.exists_captures (by simp [Separable, hhost]) hreq (.intro hhostDerives hpathDerives)
  -- no other derivation has other texts
  have hcaptured : captured = spelled (emittedAll values parts) := by
    cases hfavours.derives with
    | intro hany hown =>
      rw [hhost] at hany
      cases hany
      rw [hstrip, htree] at hown
      cases hown with
      | sequence hown => exact hparts.captured_unique hown hderives
  refine ⟨captures, hextract, ?_⟩
  intro name
  rw [hget, hcaptured, lookup_spelled, htree, emitted]

/-- The variables of a request for a path that was built are read as the texts that were written, and
else as their defaults. -/
theorem IsCompiled.readVariables_of_captures {book : RuleBook} {template : Template}
    (h : template.IsCompiled book) {values : Values} {captures : Pattern.Captures}
    (hget : ∀ name, captures.get? name = (emitted values template.path.tree).lookup name)
    (hrules : ∀ v ∈ template.vars, ∀ text, (v.name, text) ∈ emitted values template.path.tree →
      ∀ rule ∈ v.rules, rule.passes text = true) :
    readVariables captures template.vars = .matched (returned values template) := by
  have hpasses : ∀ v ∈ template.vars, ∀ text ∈ v.text? captures, ∀ rule ∈ v.rules,
      rule.passes text = true := by
    intro v hv text htext rule hrule
    rw [Variable.text?, hget, Option.mem_def, Option.or_eq_some_iff] at htext
    rcases htext with hwritten | ⟨-, hdefault⟩
    · obtain ⟨before, after, hsplit, -⟩ := List.lookup_eq_some_iff.1 hwritten
      exact hrules v hv text (by simp [hsplit]) rule hrule
    · exact (rules_of_compileSites h.vars v hv).2 text hdefault rule hrule
  rw [readVariables_eq_matched hpasses, returned]
  simp only [Variable.text?, hget]

/-- A request for a path that was built is matched, and what was written is returned, if the texts that
were written satisfy their rules. -/
theorem IsCompiled.extract_buildPath {book : RuleBook} {template : Template}
    (h : template.IsCompiled book) (hhost : template.hostTree? = none)
    (hpath : template.path.text.toList.head? ≠ some '/')
    (hparts : Segmented template.path.tree.parts)
    (hstart : ∀ inner rest, template.path.tree.parts ≠ .optional inner :: rest)
    {values : Values} {uri : String} (hbuild : template.buildPath values = .ok uri)
    (hrules : ∀ v ∈ template.vars, ∀ text, (v.name, text) ∈ emitted values template.path.tree →
      ∀ rule ∈ v.rules, rule.passes text = true)
    {host : String} (hreq : separator ∉ host.toList) :
    template.extract (subject host uri) = .matched (returned values template) := by
  obtain ⟨captures, hextract, hget⟩ := h.captures_buildPath hhost hpath hparts hstart hbuild hreq
  rw [hextract, h.readVariables_of_captures hget hrules]

theorem head?_stripSlashes (path : String) : (stripSlashes path).toList.head? ≠ some '/' := by
  rw [stripSlashes, String.toList_ofList]
  intro hhead
  have hnot := List.head?_dropWhile_not (· == '/') path.toList
  rw [hhead] at hnot
  cases hnot

end Template

namespace RouteTable

/-- In a table of one route without host and headers, a request for a path that was built from values
gives the values back: what was written for a variable, and else its default, in the type of the
variable. The path is one in segments, and the texts that are written satisfy their rules. -/
theorem dispatch_buildPath {book : RuleBook} {declaration : Declaration} {route : Route}
    {table : RouteTable} (hroute : declaration.compile book = .ok route)
    (hhost : declaration.host = none) (hheaders : route.headers = .empty)
    (htable : ofRoutes [route] = .ok table)
    (hparts : Template.Segmented route.template.path.tree.parts)
    (hstart : ∀ inner rest, route.template.path.tree.parts ≠ .optional inner :: rest)
    {values : Template.Values} {uri : String} (hbuild : route.template.buildPath values = .ok uri)
    (hrules : ∀ v ∈ route.template.vars, ∀ text,
      (v.name, text) ∈ Template.emitted values route.template.path.tree →
        ∀ rule ∈ v.rules, rule.passes text = true)
    {method host : String} (hmethod : method ∈ route.methods)
    (hreq : Template.separator ∉ host.toList) (headers : List (String × String)) :
    table.dispatch ⟨method, host, uri, headers⟩
      = .ok ⟨0, route, Template.returned values route.template⟩ := by
  have htemplate : Template.compile book declaration.path declaration.host = .ok route.template := by
    obtain ⟨_, _, -, htemplate, rfl⟩ := Declaration.compile_eq_ok_iff.1 hroute
    exact htemplate
  obtain ⟨htext, hhostText, hcompiled⟩ := Template.compile_eq_ok htemplate
  have hnone : route.template.hostTree? = none := by
    rw [hhost, Option.map_eq_none_iff] at hhostText
    rw [Template.hostTree?, hhostText, Option.map_none]
  obtain ⟨captures, hextract, hget⟩ := hcompiled.captures_buildPath hnone
    (htext ▸ Template.head?_stripSlashes _) hparts hstart hbuild hreq
  rw [hcompiled.readVariables_of_captures hget hrules] at hextract
  have hanswers : route.Answers ⟨method, host, uri, headers⟩ (Template.returned values route.template) :=
    ⟨hmethod, hextract, by simp [hheaders, SortedMap.empty]⟩
  exact (decides_dispatch htable _).eq_of_found (List.nil_append _).symm hanswers (by simp)

theorem dispatch_buildPath_segments : ∃ route table,
    ((Declaration.ofPath ["GET"] "/a/:x[/:y=7]").dispatchingTo (.handler "show")).compile .standard
      = .ok route
    ∧ ofRoutes [route] = .ok table
    ∧ route.template.buildPath [("x", .string "1"), ("y", .string "2")] = .ok "/a/1/2"
    ∧ table.dispatch ⟨"GET", "h", "/a/1/2", []⟩
        = .ok ⟨0, route, [("x", .string "1"), ("y", .string "2")]⟩
    ∧ route.template.buildPath [("x", .string "1")] = .ok "/a/1"
    ∧ table.dispatch ⟨"GET", "h", "/a/1", []⟩
        = .ok ⟨0, route, [("x", .string "1"), ("y", .string "7")]⟩ := by
  have hcompile := @Template.compile_of_parse .standard "/a/:x[/:y=7]"
    (.sequence [.literal "a/", .variable "x" [] none,
      .optional [.literal "/", .variable "y" [] (some "7")]])
    none [⟨"x", [], [], none, false, .string⟩, ⟨"y", [], [], some "7", true, .string⟩]
    (by cbv) (by rintro side ⟨⟩) (by cbv) (by decide) (by decide +kernel)
  have hroute := (@Declaration.compile_eq_ok_iff .standard
    ((Declaration.ofPath ["GET"] "/a/:x[/:y=7]").dispatchingTo (.handler "show")) _).2
      ⟨_, _, rfl, hcompile, rfl⟩
  obtain ⟨table, htable⟩ := exists_ofRoutes_singleton _
  have hparts : Template.Segmented [.literal "a/", .variable "x" [] none,
      .optional [.literal "/", .variable "y" [] (some "7")]] :=
    .literal (.variable trivial (.optional rfl (.literal (.variable trivial .nil))))
  have hdispatch := fun values uri hbuild hrules =>
    @dispatch_buildPath _ _ _ _ hroute rfl rfl htable hparts (by simp [Tree.parts]) values uri hbuild
      hrules "GET" "h" (by decide) (by decide) []
  refine ⟨_, table, hroute, htable, rfl, ?_, rfl, ?_⟩
  · exact hdispatch [("x", .string "1"), ("y", .string "2")] "/a/1/2" rfl (by simp)
  · exact hdispatch [("x", .string "1")] "/a/1" rfl (by simp)

end RouteTable

end UriRouting
