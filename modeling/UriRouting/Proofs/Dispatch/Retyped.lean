import UriRouting.Proofs.Dispatch.Decision
import UriRouting.Proofs.Template.Returned
/-!
# Routes that differ in the types of their values

The type of a variable has no part in a decision; it only says how the text of the variable is handed
back. So tables whose routes differ in nothing but these types give the same answers, with the same
texts, each in the type of its own variable.

Main statement: `RouteTable.sameAnswer_dispatch`.
-/

namespace UriRouting

/-- Two variables that differ in nothing but the type of their values. -/
structure Variable.Alike (v w : Variable) : Prop where
  /-- They have the same name. -/
  name : v.name = w.name
  /-- They call for the same rules. -/
  calls : v.calls = w.calls
  /-- Their rules are the same. -/
  rules : v.rules = w.rules
  /-- They have the same default. -/
  default : v.default = w.default
  /-- Both are optional, or neither is. -/
  optional : v.optional = w.optional

/-- Two templates that differ in nothing but the types of their values. -/
structure Template.Alike (a b : Template) : Prop where
  /-- They have the same path. -/
  path : a.path = b.path
  /-- They have the same host. -/
  host : a.host = b.host
  /-- Their variables are alike, one for one. -/
  vars : List.Forall₂ Variable.Alike a.vars b.vars
  /-- They have the same pattern. -/
  pattern : a.pattern = b.pattern

/-- Two routes that differ in nothing but the types of their values. -/
structure Route.Alike (a b : Route) : Prop where
  /-- Their templates are alike. -/
  template : a.template.Alike b.template
  /-- All else is the same. -/
  eq : a = { b with template := a.template }

/-- Two answers to a request: the same error, or routes at the same place that are alike, with the texts
of the same match, each in the type of its own variable. -/
inductive SameAnswer (request : Request) :
    Except RequestError RouteMatch → Except RequestError RouteMatch → Prop where
  /-- No route is found, for the same reason. -/
  | error (e : RequestError) : SameAnswer request (.error e) (.error e)
  /-- Routes that are alike are found at the same place. -/
  | found {place : Nat} {route route' : Route} {captures : Pattern.Captures}
      (h : route.Alike route')
      (hsearch : route.template.pattern.search request.subject = some captures) :
      SameAnswer request (.ok ⟨place, route, Template.valuesOf captures route.template.vars⟩)
        (.ok ⟨place, route', Template.valuesOf captures route'.template.vars⟩)

namespace Variable.Alike

variable {v w : Variable}

theorem symm (h : v.Alike w) : w.Alike v :=
  ⟨h.name.symm, h.calls.symm, h.rules.symm, h.default.symm, h.optional.symm⟩

theorem text?_eq (h : v.Alike w) (captures : Pattern.Captures) :
    v.text? captures = w.text? captures := by
  rw [text?, text?, h.name, h.default]

theorem failedRule?_eq (h : v.Alike w) (text : String) : v.failedRule? text = w.failedRule? text := by
  rw [failedRule?, failedRule?, h.rules]

/-- Variables that are alike and whose values have the same type are the same. -/
theorem eq_of_type (h : v.Alike w) (htype : v.type = w.type) : v = w := by
  obtain ⟨hname, hcalls, hrules, hdefault, hoptional⟩ := h
  cases v
  cases w
  cases hname
  cases hcalls
  cases hrules
  cases hdefault
  cases hoptional
  cases htype
  rfl

end Variable.Alike

namespace Template

/-- Variables that are alike are read alike. -/
theorem readVariables_of_alike {vars vars' : List Variable}
    (h : List.Forall₂ Variable.Alike vars vars') (captures : Pattern.Captures) :
    readVariables captures vars' =
      match readVariables captures vars with
      | .matched _ => .matched (valuesOf captures vars')
      | other => other := by
  induction h with
  | nil => rfl
  | @cons v w vars vars' hv _ ih =>
    have hw := hv.text?_eq captures
    rw [readVariables, readVariables, ← hw]
    cases htext : v.text? captures with
    | none =>
      have hskip : valuesOf captures (w :: vars') = valuesOf captures vars' :=
        List.filterMap_cons_none (by rw [← hw, htext, Option.map_none])
      simp only [ih, hskip]
    | some text =>
      have htake : valuesOf captures (w :: vars')
          = (w.name, Value.coerce w.type text) :: valuesOf captures vars' :=
        List.filterMap_cons_some (by rw [← hw, htext, Option.map_some])
      simp only [← hv.failedRule?_eq text, ih, htake, hv.name]
      cases v.failedRule? text with
      | some rule => rfl
      | none => cases readVariables captures vars <;> rfl

namespace Alike

variable {a b : Template} {subject : String}

theorem symm (h : a.Alike b) : b.Alike a :=
  ⟨h.path.symm, h.host.symm, (h.vars.imp fun _ _ hv => hv.symm).flip, h.pattern.symm⟩

/-- Templates that are alike and whose values have the same types are the same. -/
theorem eq_of_types (h : a.Alike b) (htypes : a.vars.map (·.type) = b.vars.map (·.type)) :
    a = b := by
  obtain ⟨hpath, hhost, hvars, hpattern⟩ := h
  have hsame : a.vars = b.vars := by
    generalize a.vars = vars at hvars htypes ⊢
    generalize b.vars = vars' at hvars htypes ⊢
    induction hvars with
    | nil => rfl
    | cons hv _ ih =>
      obtain ⟨htype, htypes⟩ := List.cons.inj htypes
      rw [hv.eq_of_type htype, ih htypes]
  cases a
  cases b
  cases hpath
  cases hhost
  cases hsame
  cases hpattern
  rfl

/-- Templates that are alike take the same requests, with the texts of the same match. -/
theorem exists_extract (h : a.Alike b) {values : List (String × Value)}
    (hextract : b.extract subject = .matched values) :
    ∃ captures, a.pattern.search subject = some captures ∧ values = valuesOf captures b.vars
      ∧ a.extract subject = .matched (valuesOf captures a.vars) := by
  rw [extract] at hextract
  rw [extract, h.pattern]
  cases hsearch : b.pattern.search subject with
  | none =>
    rw [hsearch] at hextract
    cases hextract
  | some captures =>
    rw [hsearch] at hextract
    simp only at hextract ⊢
    refine ⟨captures, rfl, eq_of_readVariables hextract, ?_⟩
    rw [readVariables_of_alike h.symm.vars, hextract]

theorem extract_eq_unmatched_iff (h : a.Alike b) :
    a.extract subject = .unmatched ↔ b.extract subject = .unmatched := by
  rw [extract, extract, h.pattern]
  cases b.pattern.search subject with
  | none => exact Iff.rfl
  | some captures => simp only [readVariables_ne_unmatched]

end Alike

end Template

namespace Route.Alike

variable {a b : Route} {request : Request}

theorem methods (h : a.Alike b) : a.methods = b.methods := by
  rw [h.eq]

theorem headers (h : a.Alike b) : a.headers = b.headers := by
  rw [h.eq]

theorem symm (h : a.Alike b) : b.Alike a := by
  refine ⟨h.template.symm, ?_⟩
  rw [h.eq]

/-- Routes that are alike and whose values have the same types are the same. -/
theorem eq_of_types (h : a.Alike b)
    (htypes : a.template.vars.map (·.type) = b.template.vars.map (·.type)) : a = b := by
  rw [h.eq, h.template.eq_of_types htypes]

theorem takes_iff (h : a.Alike b) : a.Takes request ↔ b.Takes request := by
  constructor
  · rintro ⟨values, hextract⟩
    obtain ⟨captures, -, -, hextract'⟩ := h.symm.template.exists_extract hextract
    exact ⟨_, hextract'⟩
  · rintro ⟨values, hextract⟩
    obtain ⟨captures, -, -, hextract'⟩ := h.template.exists_extract hextract
    exact ⟨_, hextract'⟩

/-- Routes that are alike answer the same requests, with the texts of the same match. -/
theorem exists_answers (h : a.Alike b) {values : List (String × Value)}
    (hanswers : b.Answers request values) :
    ∃ captures, a.template.pattern.search request.subject = some captures
      ∧ values = Template.valuesOf captures b.template.vars
      ∧ a.Answers request (Template.valuesOf captures a.template.vars) := by
  obtain ⟨captures, hsearch, hvalues, hextract⟩ := h.template.exists_extract hanswers.extract_eq
  refine ⟨captures, hsearch, hvalues, ?_, hextract, ?_⟩
  · rw [h.methods]
    exact hanswers.accepts
  · rw [h.headers]
    exact hanswers.headers

end Route.Alike

/-! ## Tables -/

/-- Each route of one list is like one of the other. -/
theorem exists_alike_of_mem {routes routes' : List Route} (h : List.Forall₂ Route.Alike routes routes')
    {route : Route} (hroute : route ∈ routes) : ∃ route' ∈ routes', route.Alike route' := by
  induction h with
  | nil => cases hroute
  | @cons first first' routes routes' hfirst _ ih =>
    rcases List.mem_cons.1 hroute with rfl | hroute
    · exact ⟨first', List.mem_cons_self, hfirst⟩
    · obtain ⟨route', hmem, halike⟩ := ih hroute
      exact ⟨route', List.mem_cons_of_mem _ hmem, halike⟩

theorem forall₂_alike_symm {routes routes' : List Route}
    (h : List.Forall₂ Route.Alike routes routes') : List.Forall₂ Route.Alike routes' routes :=
  (h.imp fun _ _ hroute => hroute.symm).flip

/-- Routes that are alike allow the same methods. -/
theorem allows_of_alike {routes routes' : List Route} (h : List.Forall₂ Route.Alike routes routes')
    {request : Request} {method : String} (hallows : Allows routes request method) :
    Allows routes' request method := by
  obtain ⟨route, hroute, haccepts, htakes, hmethod⟩ := hallows
  obtain ⟨route', hmem, halike⟩ := exists_alike_of_mem h hroute
  rw [halike.methods] at haccepts hmethod
  exact ⟨route', hmem, haccepts, halike.takes_iff.1 htakes, hmethod⟩

/-- What is decided over some routes is decided alike over routes that are like them. -/
theorem Decides.exists_of_alike {routes routes' : List Route} {request : Request}
    {result : Except RequestError RouteMatch} (h : List.Forall₂ Route.Alike routes routes')
    (hdecides : Decides routes' request result) :
    ∃ result', Decides routes request result' ∧ SameAnswer request result' result := by
  -- all that a decision asks of a route is the same for a route that is like it
  have hsymm := forall₂_alike_symm h
  have hallows : ∀ method, Allows routes' request method ↔ Allows routes request method :=
    fun _ => ⟨allows_of_alike hsymm, allows_of_alike h⟩
  have hsilent : (∀ route ∈ routes', request.method ∈ route.methods →
      route.template.extract request.subject = .unmatched) →
      ∀ route ∈ routes, request.method ∈ route.methods →
        route.template.extract request.subject = .unmatched := by
    intro hunmatched route hroute haccepts
    obtain ⟨route', hmem, halike⟩ := exists_alike_of_mem h hroute
    rw [halike.methods] at haccepts
    exact halike.template.extract_eq_unmatched_iff.2 (hunmatched route' hmem haccepts)
  cases hdecides with
  | @found before after route values hroutes hanswers hbefore =>
    subst hroutes
    have hfront := List.forall₂_take_append _ _ _ h
    obtain ⟨route', after', halike, -, hrest⟩ :=
      List.forall₂_cons_right_iff.1 (List.forall₂_drop_append _ _ _ h)
    obtain ⟨captures, hsearch, rfl, hanswers'⟩ := halike.exists_answers hanswers
    refine ⟨_, .found (hrest ▸ (List.take_append_drop before.length routes).symm) hanswers' ?_, ?_⟩
    · intro earlier hearlier others hothers
      obtain ⟨earlier', hmem, halike'⟩ := exists_alike_of_mem hfront hearlier
      obtain ⟨captures', -, -, hothers'⟩ := halike'.symm.exists_answers hothers
      exact hbefore earlier' hmem _ hothers'
    · rw [hfront.length_eq]
      exact .found halike hsearch
  | @refused route hnone hroute haccepts hmatched =>
    obtain ⟨route', hmem, halike⟩ := exists_alike_of_mem hsymm hroute
    refine ⟨_, .refused ?_ hmem (halike.methods ▸ haccepts) ?_, .error _⟩
    · intro other hother values hanswers
      obtain ⟨other', hmem', halike'⟩ := exists_alike_of_mem h hother
      obtain ⟨captures, -, -, hanswers'⟩ := halike'.symm.exists_answers hanswers
      exact hnone other' hmem' _ hanswers'
    · exact fun hunmatched => hmatched (halike.template.extract_eq_unmatched_iff.2 hunmatched)
  | @notAllowed allowed hunmatched hallowed hsorted hne =>
    exact ⟨_, .notAllowed (hsilent hunmatched) (fun method => (hallowed method).trans (hallows method))
      hsorted hne, .error _⟩
  | missing hunmatched hnone =>
    exact ⟨_, .missing (hsilent hunmatched) (fun method h => hnone method ((hallows method).2 h)),
      .error _⟩

/-- Tables of routes that are alike give the same answers. -/
theorem RouteTable.sameAnswer_dispatch {table table' : RouteTable}
    (htable : ofRoutes table.routes = .ok table) (htable' : ofRoutes table'.routes = .ok table')
    (h : List.Forall₂ Route.Alike table.routes table'.routes) (request : Request) :
    SameAnswer request (table.dispatch request) (table'.dispatch request) := by
  obtain ⟨result, hdecides, hsame⟩ := (decides_dispatch htable' request).exists_of_alike h
  rwa [(decides_dispatch htable request).unique hdecides]

end UriRouting
