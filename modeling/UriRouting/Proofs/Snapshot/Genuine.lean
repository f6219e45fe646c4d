import UriRouting.Proofs.Snapshot.Rebuilt
/-!
# Routes with a declaration behind them

Bytes that were not written by saving may load as a table whose patterns have nothing to do with its
templates. A snapshot of routes that were declared cannot: loading takes the pattern of each route as it
was stored, and changes nothing in a template but its variables.

* `GenuineRoute` says that a route was declared, or came out of snapshots of such routes;
* `GenuineRoute.exists_isCompiled` says that its template is a compiled one, but for the variables.
-/

namespace UriRouting

namespace Snapshot

/-- A route that was declared, or that was loaded from a snapshot of such routes. The rule books may be
different ones. -/
inductive GenuineRoute : Route → Prop where
  /-- A route that was declared. -/
  | declared {book : RuleBook} {declaration : Declaration} {route : Route}
      (h : declaration.compile book = .ok route) : GenuineRoute route
  /-- A route of a table that was saved and loaded. -/
  | reloaded {book : RuleBook} {version expected : Option String} {saved loaded : RouteTable}
      {route : Route} (hsaved : ∀ other ∈ saved.routes, GenuineRoute other)
      (hload : load book expected (save saved version) = .ok loaded) (hroute : route ∈ loaded.routes) :
      GenuineRoute route

/-- What is loaded from a snapshot are the routes that were saved, made again. -/
theorem rebuildRoutes_of_load_save {book : RuleBook} {version expected : Option String}
    {saved loaded : RouteTable} (h : load book expected (save saved version) = .ok loaded) :
    rebuildRoutes book (saved.routes.map storeRoute) = .ok loaded.routes := by
  rw [load_save_eq_restore (length_lt_of_load_save book h)] at h
  exact (restore_eq_ok h).2.1

/-- The template of a genuine route is a compiled one, but for the variables. -/
theorem GenuineRoute.exists_isCompiled {route : Route} (h : GenuineRoute route) :
    ∃ (book : RuleBook) (original : Template) (vars : List Variable), original.IsCompiled book
      ∧ route.template = { original with vars } := by
  induction h with
  | @declared book declaration route h =>
    obtain ⟨_, template, -, htemplate, rfl⟩ := Declaration.compile_eq_ok_iff.1 h
    exact ⟨book, template, template.vars, (Template.compile_eq_ok htemplate).2.2, rfl⟩
  | @reloaded book _ _ saved loaded route _ hload hroute ih =>
    have hpatterns : ∀ other ∈ saved.routes,
        Pattern.ofSource other.template.pattern.source = .ok other.template.pattern := by
      intro other hother
      obtain ⟨_, original, _, hcompiled, htemplate⟩ := ih other hother
      rw [htemplate, source_of_ofSource hcompiled.pattern]
      exact hcompiled.pattern
    have hagain := forall₂_of_rebuildRoutes book hpatterns (rebuildRoutes_of_load_save hload)
    obtain ⟨other, hother, vars, -, rfl⟩ := exists_mem_of_forall₂ hagain hroute
    obtain ⟨maker, original, _, hcompiled, htemplate⟩ := ih other hother
    refine ⟨maker, original, vars, hcompiled, ?_⟩
    rw [Route.withVars, htemplate]

end Snapshot

end UriRouting
