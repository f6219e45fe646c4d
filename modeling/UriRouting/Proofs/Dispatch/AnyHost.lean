import UriRouting.Proofs.Dispatch.Regenerated
import UriRouting.Proofs.Snapshot.Genuine
/-!
# Requests for any host

A request is tested as one text, its host in front of its path with a separator between them. A template
without a host skips the text up to the first separator and tests what is behind. So the host of a request
does not count as long as it holds no separator; but of a host with one, all that is behind the first is
tested as if it stood in front of the path.

* `Template.IsCompiled.search_agrees` says that a search only sees what is behind the first separator;
* `RouteTable.dispatch_withHost` says that hosts that agree from their first separator on get the same
  answers, so in particular all hosts without a separator;
* `RouteTable.dispatch_host_with_separator` is a host that is read as a part of the path.
-/

namespace UriRouting

open Pattern UriRouting.Tree UriRouting.Snapshot

namespace Template

/-! ## Ways behind the first separator -/

/-- There is no way over a host and a separator in a text without one. -/
theorem frontWays_eq_nil {host : Option Tree} {text : List Char} (h : separator ∉ text) :
    frontWays host ⟨text, [], []⟩ = [] := by
  rw [List.eq_nil_iff_forall_not_mem]
  intro way hway
  obtain ⟨front, rest, choices, captured, rfl, -, -, -⟩ := mem_frontWays_iff_cut.1 hway
  exact h (List.mem_append_right _ List.mem_cons_self)

/-- Without a host in the template, the ways go on behind the first separator. -/
theorem frontWays_none_congr {text text' : List Char} (h : fromSeparator text = fromSeparator text') :
    frontWays none ⟨text, [], []⟩ = frontWays none ⟨text', [], []⟩ := by
  by_cases hmem : separator ∈ text
  · have hmem' : separator ∈ text' := by
      by_contra hfree
      rw [fromSeparator_eq_nil_iff.2 hfree, fromSeparator_eq_nil_iff] at h
      exact h hmem
    obtain ⟨front, rest, rfl, hfree⟩ := List.eq_append_cons_of_mem hmem
    obtain ⟨front', rest', rfl, hfree'⟩ := List.eq_append_cons_of_mem hmem'
    rw [fromSeparator_append hfree, fromSeparator_append hfree'] at h
    rw [frontWays_none hfree, frontWays_none hfree', List.tail_eq_of_cons_eq h]
  · have hfree' : separator ∉ text' := by
      rwa [← fromSeparator_eq_nil_iff, ← h, fromSeparator_eq_nil_iff]
    rw [frontWays_eq_nil hmem, frontWays_eq_nil hfree']

/-! ## Searches -/

/-- Two searches find nothing, or groups with the same texts. -/
def SameTexts : Option Captures → Option Captures → Prop :=
  Option.Rel fun captures captures' => ∀ name, captures.get? name = captures'.get? name

/-- Where the ways over a template are the same, a search gives the same texts. -/
theorem IsCompiled.sameTexts_search {book : RuleBook} {template : Template} (h : template.IsCompiled book)
    {text text' : String}
    (hways : wholeWays template.path.tree template.hostTree? ⟨text.toList, [], []⟩
      = wholeWays template.path.tree template.hostTree? ⟨text'.toList, [], []⟩) :
    SameTexts (template.pattern.search text) (template.pattern.search text') := by
  obtain ⟨arrived, hshows, hsearch⟩ := h.exists_search_eq text
  obtain ⟨arrived', hshows', hsearch'⟩ := h.exists_search_eq text'
  rw [hsearch, hsearch']
  cases hall : wholeWays template.path.tree template.hostTree? ⟨text.toList, [], []⟩ with
  | nil =>
    rw [← hways, hall, List.forall₂_nil_right_iff] at hshows'
    rw [hall, List.forall₂_nil_right_iff] at hshows
    rw [hshows, hshows']
    exact .none
  | cons way others =>
    have hcovers := covers_of_mem_wholeWays (hall ▸ List.mem_cons_self)
    have hnames := hcovers.nodup_names h.nodup_names
    rw [← hways, hall] at hshows'
    rw [hall] at hshows
    obtain ⟨walk, _, hwalk, -, rfl⟩ := List.forall₂_cons_right_iff.1 hshows
    obtain ⟨walk', _, hwalk', -, rfl⟩ := List.forall₂_cons_right_iff.1 hshows'
    refine .some fun name => ?_
    rw [hwalk.get?_captures hnames, hwalk'.get?_captures hnames]

/-- A template without a host only sees what a text has from its first separator on. -/
theorem IsCompiled.search_agrees {book : RuleBook} {template : Template} (h : template.IsCompiled book)
    (hhost : template.hostTree? = none) {text text' : String}
    (hsame : fromSeparator text.toList = fromSeparator text'.toList) :
    SameTexts (template.pattern.search text) (template.pattern.search text') := by
  apply h.sameTexts_search
  rw [hhost, wholeWays, wholeWays, frontWays_none_congr hsame]

/-- What is read does not depend on the groups but for their texts. -/
theorem readVariables_congr {captures captures' : Captures}
    (h : ∀ name, captures.get? name = captures'.get? name) (vars : List Variable) :
    readVariables captures vars = readVariables captures' vars := by
  induction vars with
  | nil => rfl
  | cons v vars ih =>
    have htext : v.text? captures = v.text? captures' := by
      rw [Variable.text?, Variable.text?, h]
    rw [readVariables, readVariables, htext, ih]

theorem extract_congr {template : Template} {text text' : String}
    (h : SameTexts (template.pattern.search text) (template.pattern.search text')) :
    template.extract text = template.extract text' := by
  rw [extract, extract]
  generalize template.pattern.search text = found at h ⊢
  generalize template.pattern.search text' = found' at h ⊢
  cases h with
  | none => rfl
  | some h => exact readVariables_congr h template.vars

end Template

/-- A genuine route without a host makes the same of texts that agree from the first separator on. -/
theorem Snapshot.GenuineRoute.extract_eq {route : Route} (h : GenuineRoute route)
    (hhost : route.template.host = none) {text text' : String}
    (hsame : Template.fromSeparator text.toList = Template.fromSeparator text'.toList) :
    route.template.extract text = route.template.extract text' := by
  obtain ⟨book, original, vars, hcompiled, htemplate⟩ := h.exists_isCompiled
  rw [htemplate] at hhost ⊢
  have hnone : original.hostTree? = none := Option.map_eq_none_iff.2 hhost
  exact Template.extract_congr (hcompiled.search_agrees hnone hsame)

/-- What a template of one variable makes of a path, and of the end of a host as if it stood in front of
the path. -/
theorem Template.exists_extract_any_host : ∃ template,
    compile .standard "/:x" none = .ok template ∧ template.host = none
      ∧ template.extract (subject "a" "/c") = .matched [("x", .string "c")]
      ∧ template.extract (subject "a\x00b" "/c") = .matched [("x", .string "b\x00c")] := by
  have hcompile := @compile_of_parse .standard "/:x" (.sequence [.variable "x" [] none]) none
    [⟨"x", [], [], none, false, .string⟩] (by cbv) (by rintro side ⟨⟩) (by cbv) (by decide)
    (by decide +kernel)
  obtain ⟨-, -, hcompiled⟩ := compile_eq_ok hcompile
  have hparts : Segmented [.variable "x" [] none] := .variable trivial .nil
  have hmatched := fun values uri hbuild host hreq =>
    @IsCompiled.extract_buildPath _ _ hcompiled rfl (by decide) hparts (by simp [Tree.parts]) values uri
      hbuild (by simp) host hreq
  -- both texts go on with the same path behind their first separator
  have hsame : fromSeparator (subject "a\x00b" "/c").toList
      = fromSeparator (subject "" "/b\x00c").toList := rfl
  refine ⟨_, hcompile, rfl, hmatched [("x", .string "c")] "/c" rfl "a" (by decide), ?_⟩
  rw [extract_congr (hcompiled.search_agrees rfl hsame)]
  exact hmatched [("x", .string "b\x00c")] "/b\x00c" rfl "" (by decide)

/-! ## Answers -/

/-- The request for another host. -/
def Request.withHost (request : Request) (host : String) : Request :=
  { request with host }

namespace RouteTable

/-- In a table of routes without hosts, hosts that agree from their first separator on get the same
answers. -/
theorem dispatch_withHost {routes : List Route} {table : RouteTable}
    (hroutes : ∀ route ∈ routes, GenuineRoute route) (htable : ofRoutes routes = .ok table)
    (hhosts : ∀ route ∈ routes, route.template.host = none) (request : Request) {host host' : String}
    (hsame : Template.fromSeparator host.toList = Template.fromSeparator host'.toList) :
    table.dispatch (request.withHost host) = table.dispatch (request.withHost host') := by
  have hindistinct : Indistinct routes (request.withHost host') (request.withHost host) := by
    refine ⟨rfl, rfl, ?_⟩
    intro route hroute
    exact (hroutes route hroute).extract_eq (hhosts route hroute)
      (Template.fromSeparator_subject hsame request.path)
  rw [dispatch_eq_iff htable]
  exact hindistinct.decides (decides_dispatch htable (request.withHost host'))

/-- A route of one variable makes the same of requests for two hosts. -/
theorem dispatch_withHost_variable : ∃ route table,
    ((Declaration.ofPath ["GET"] "/:x").dispatchingTo (.handler "show")).compile .standard = .ok route
      ∧ ofRoutes [route] = .ok table ∧ route.template.host = none
      ∧ table.dispatch ⟨"GET", "a", "/c", []⟩ = .ok ⟨0, route, [("x", .string "c")]⟩
      ∧ table.dispatch ⟨"GET", "b.org", "/c", []⟩ = .ok ⟨0, route, [("x", .string "c")]⟩ := by
  obtain ⟨template, hcompile, hhost, hmatched, -⟩ := Template.exists_extract_any_host
  obtain ⟨route, table, hroute, htable, rfl, hdispatch⟩ := @exists_dispatch_of_extract .standard
    ((Declaration.ofPath ["GET"] "/:x").dispatchingTo (.handler "show")) _ template rfl rfl hcompile
    ⟨"GET", "a", "/c", []⟩ (by decide) _ hmatched
  refine ⟨route, table, hroute, htable, hhost, hdispatch, ?_⟩
  rw [← hdispatch]
  exact dispatch_withHost (List.forall_mem_singleton.2 (.declared hroute)) htable
    (List.forall_mem_singleton.2 hhost) ⟨"GET", "", "/c", []⟩ rfl

/-- What a host has behind a separator is read as if it stood in front of the path. -/
theorem dispatch_host_with_separator : ∃ route table,
    ((Declaration.ofPath ["GET"] "/:x").dispatchingTo (.handler "show")).compile .standard = .ok route
      ∧ ofRoutes [route] = .ok table ∧ route.template.host = none
      ∧ table.dispatch ⟨"GET", "a", "/c", []⟩ = .ok ⟨0, route, [("x", .string "c")]⟩
      ∧ table.dispatch ⟨"GET", "a\x00b", "/c", []⟩ = .ok ⟨0, route, [("x", .string "b\x00c")]⟩ := by
  obtain ⟨template, hcompile, hhost, hmatched, hother⟩ := Template.exists_extract_any_host
  obtain ⟨route, table, hroute, htable, rfl, hdispatch⟩ := @exists_table_of_compile .standard
    ((Declaration.ofPath ["GET"] "/:x").dispatchingTo (.handler "show")) _ template rfl rfl hcompile
  exact ⟨route, table, hroute, htable, hhost, hdispatch ⟨"GET", "a", "/c", []⟩ _ (by decide) hmatched,
    hdispatch ⟨"GET", "a\x00b", "/c", []⟩ _ (by decide) hother⟩

end RouteTable

end UriRouting
