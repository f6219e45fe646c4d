import UriRouting.Provision
/-!
# A cache that providers share

Providers of one application may share a cache. What it holds is given back as it is, and nothing else
happens. An empty cache makes a provider run its registrar; a table that is built is offered once, and is
provided whether it is taken or not. So the first table that is taken is the table from then on.

Registrars and the cache are left open: what a registrar declares, and whether an offer is taken, may
depend on all that has happened so far.

* `Provides` says what a single call does, and `provides_run_provide` that a provider does this;
* `ProvidesAll.of_held` says what calls in a row do once the cache holds a table;
* `run_provideAll` puts these together.
-/

namespace UriRouting

/-! ## The cache and those who use it -/

/-- What happens at a cache or a registrar. -/
inductive Access where
  /-- The cache is asked for what it holds. -/
  | asked
  /-- A registrar is run. -/
  | registered
  /-- A table is offered to the cache. -/
  | offered (table : RouteTable)

/-- A cache that providers share. -/
structure SharedCache where
  /-- What the cache holds. -/
  held : Option RouteTable
  /-- What has happened so far, in order. -/
  log : List Access

namespace SharedCache

/-- Why an offer is not taken, if it is not. The cache may decide each time anew. -/
abbrev Refusal := SharedCache → RouteTable → Option CacheError

/-- What a registrar declares. It may declare something else each time. -/
abbrev Registrar := SharedCache → Registration

/-- The cache after more has happened to it. -/
def noted (shared : SharedCache) (accesses : List Access) : SharedCache :=
  { shared with log := shared.log ++ accesses }

@[simp] theorem held_noted (shared : SharedCache) (accesses : List Access) :
    (shared.noted accesses).held = shared.held :=
  rfl

@[simp] theorem noted_noted (shared : SharedCache) (accesses accesses' : List Access) :
    (shared.noted accesses).noted accesses' = shared.noted (accesses ++ accesses') := by
  simp [noted]

/-- What the cache holds. -/
def look : StateM SharedCache (Option RouteTable) := do
  modify (·.noted [.asked])
  return (← get).held

/-- Offers a table: it is stored, or the cache stays as it is. -/
def offer (refusal : Refusal) (table : RouteTable) : StateM SharedCache (Except CacheError Unit) := do
  modify (·.noted [.offered table])
  let shared ← get
  match refusal shared table with
  | some e => return .error e
  | none =>
    set { shared with held := some table }
    return .ok ()

/-- Runs a registrar. -/
def register (registrar : Registrar) : StateM SharedCache Registration := do
  modify (·.noted [.registered])
  return registrar (← get)

/-- A provider with the shared cache. -/
def provider (refusal : Refusal) (registrar : Registrar) : Provider (StateM SharedCache) :=
  ⟨register registrar, some ⟨look, offer refusal⟩⟩

/-- Providers are called one after another. -/
def provideAll (refusal : Refusal) (registrars : List Registrar) :
    StateM SharedCache (List (RouteTable.Report (Except DeclarationError RouteTable))) :=
  registrars.mapM fun registrar => (provider refusal registrar).provide

/-! ## One call -/

/-- What comes of the declarations of a registrar. -/
def built (registrar : Registrar) (shared : SharedCache) : Except DeclarationError RouteTable :=
  RouteTable.build (registrar shared).book (registrar shared).declarations

/-- What a call does: from a cache, to a result and the cache behind it. -/
inductive Provides (refusal : Refusal) (registrar : Registrar) (before : SharedCache) :
    Except DeclarationError RouteTable → SharedCache → Prop where
  /-- A table that is held is provided, and nothing is run or offered. -/
  | hit {table : RouteTable} (hheld : before.held = some table) :
      Provides refusal registrar before (.ok table) (before.noted [.asked])
  /-- Declarations that make no table are reported, and nothing is offered. -/
  | malformed {e : DeclarationError} (hheld : before.held = none)
      (hbuilt : built registrar (before.noted [.asked, .registered]) = .error e) :
      Provides refusal registrar before (.error e) (before.noted [.asked, .registered])
  /-- A table that is built is provided, and stored if the offer is taken. -/
  | stored {table : RouteTable} (hheld : before.held = none)
      (hbuilt : built registrar (before.noted [.asked, .registered]) = .ok table)
      (htaken : refusal (before.noted [.asked, .registered, .offered table]) table = none) :
      Provides refusal registrar before (.ok table)
        { before.noted [.asked, .registered, .offered table] with held := some table }
  /-- A table that is built is provided also if the offer is not taken. -/
  | refused {table : RouteTable} {e : CacheError} (hheld : before.held = none)
      (hbuilt : built registrar (before.noted [.asked, .registered]) = .ok table)
      (hrefused : refusal (before.noted [.asked, .registered, .offered table]) table = some e) :
      Provides refusal registrar before (.ok table)
        (before.noted [.asked, .registered, .offered table])

/-- Two steps one after another, from the cache that the first one leaves. -/
theorem run_bind {α β : Type} (first : StateM SharedCache α) (next : α → StateM SharedCache β)
    (shared : SharedCache) :
    (first >>= next).run shared = (next (first.run shared).1).run (first.run shared).2 :=
  rfl

theorem run_pure {α : Type} (a : α) (shared : SharedCache) :
    (pure a : StateM SharedCache α).run shared = (a, shared) :=
  rfl

section

variable (refusal : Refusal) (registrar : Registrar)

theorem run_look (shared : SharedCache) :
    look.run shared = (shared.held, shared.noted [.asked]) :=
  rfl

theorem run_register (shared : SharedCache) :
    (register registrar).run shared
      = (registrar (shared.noted [.registered]), shared.noted [.registered]) :=
  rfl

theorem run_offer (shared : SharedCache) (table : RouteTable) :
    (offer refusal table).run shared = match refusal (shared.noted [.offered table]) table with
      | some e => (.error e, shared.noted [.offered table])
      | none => (.ok (), { shared.noted [.offered table] with held := some table }) := by
  rw [offer, run_bind, run_bind]
  change StateT.run (match refusal (shared.noted [.offered table]) table with
    | some e => _
    | none => _) _ = _
  cases refusal (shared.noted [.offered table]) table <;> rfl

/-- A call does just that. -/
theorem provides_run_provide (before : SharedCache) :
    Provides refusal registrar before ((provider refusal registrar).provide.run before).1.result
      ((provider refusal registrar).provide.run before).2 := by
  have hprovide : (provider refusal registrar).provide
      = (provider refusal registrar).provideCached ⟨look, offer refusal⟩ := rfl
  rw [hprovide, Provider.provideCached, run_bind, run_look]
  cases hheld : before.held with
  | some table => exact .hit hheld
  | none =>
    simp only [run_bind, Provider.buildTable, provider, run_register, run_pure, noted_noted,
      List.cons_append, List.nil_append]
    -- the result of a build is that of its report
    have hreport : ∀ shared, (RouteTable.reportBuild (registrar shared).book
        (registrar shared).declarations).result = built registrar shared := fun _ => rfl
    cases hbuilt : built registrar (before.noted [.asked, .registered]) with
    | error e =>
      simp only [hreport, hbuilt]
      exact .malformed hheld hbuilt
    | ok table =>
      simp only [hreport, hbuilt, run_bind, run_offer, run_pure, noted_noted, List.cons_append,
        List.nil_append]
      cases htaken : refusal (before.noted [.asked, .registered, .offered table]) table with
      | none => exact .stored hheld hbuilt htaken
      | some e => exact .refused hheld hbuilt htaken

end

/-- Once a table is held, a call provides it and only asks the cache. -/
theorem Provides.of_held {refusal : Refusal} {registrar : Registrar} {before after : SharedCache}
    {result : Except DeclarationError RouteTable} (h : Provides refusal registrar before result after)
    {table : RouteTable} (hheld : before.held = some table) :
    result = .ok table ∧ after = before.noted [.asked] := by
  cases h with
  | hit hheld' =>
    obtain rfl := Option.some.inj (hheld'.symm.trans hheld)
    exact ⟨rfl, rfl⟩
  | malformed hempty => cases hempty.symm.trans hheld
  | stored hempty => cases hempty.symm.trans hheld
  | refused hempty => cases hempty.symm.trans hheld

/-! ## Calls one after another -/

/-- What calls do one after another, each from the cache that the one before it leaves. -/
inductive ProvidesAll (refusal : Refusal) :
    List Registrar → SharedCache → List (Except DeclarationError RouteTable) → SharedCache → Prop where
  /-- Without a call nothing happens. -/
  | nil {shared : SharedCache} : ProvidesAll refusal [] shared [] shared
  /-- The first call, and then the others. -/
  | cons {registrar : Registrar} {registrars : List Registrar} {before between after : SharedCache}
      {result : Except DeclarationError RouteTable}
      {results : List (Except DeclarationError RouteTable)}
      (h : Provides refusal registrar before result between)
      (hmore : ProvidesAll refusal registrars between results after) :
      ProvidesAll refusal (registrar :: registrars) before (result :: results) after

theorem run_provideAll_cons (refusal : Refusal) (registrar : Registrar) (registrars : List Registrar)
    (shared : SharedCache) :
    (provideAll refusal (registrar :: registrars)).run shared
      = let first := (provider refusal registrar).provide.run shared
        let others := (provideAll refusal registrars).run first.2
        (first.1 :: others.1, others.2) := by
  rw [provideAll, List.mapM_cons, run_bind, run_bind, run_pure, ← provideAll]

/-- Calls in a row do that. -/
theorem providesAll_run_provideAll (refusal : Refusal) (registrars : List Registrar)
    (start : SharedCache) :
    ProvidesAll refusal registrars start (((provideAll refusal registrars).run start).1.map (·.result))
      ((provideAll refusal registrars).run start).2 := by
  induction registrars generalizing start with
  | nil => exact .nil
  | cons registrar registrars ih =>
    rw [run_provideAll_cons]
    exact .cons (provides_run_provide refusal registrar start) (ih _)

/-- Once a table is held, calls in a row provide it, and they only ask the cache. -/
theorem ProvidesAll.of_held {refusal : Refusal} {registrars : List Registrar}
    {before after : SharedCache} {results : List (Except DeclarationError RouteTable)}
    (h : ProvidesAll refusal registrars before results after) {table : RouteTable}
    (hheld : before.held = some table) :
    results = List.replicate registrars.length (.ok table)
      ∧ after = before.noted (List.replicate registrars.length .asked) := by
  induction h with
  | nil => simp [noted]
  | cons h _ ih =>
    obtain ⟨rfl, rfl⟩ := h.of_held hheld
    obtain ⟨rfl, rfl⟩ := ih hheld
    simp [List.replicate_succ]

theorem run_provideAll_append (refusal : Refusal) (earlier later : List Registrar)
    (start : SharedCache) :
    (provideAll refusal (earlier ++ later)).run start
      = let first := (provideAll refusal earlier).run start
        let others := (provideAll refusal later).run first.2
        (first.1 ++ others.1, others.2) := by
  rw [provideAll, List.mapM_append, run_bind, run_bind, run_pure, ← provideAll, ← provideAll]

/-- Calls that share a cache, whatever their registrars declare and whether or not the cache takes what it
is offered, each do what a call does. Once the cache holds a table, it holds that table after every later
call, and each later call provides it. -/
theorem run_provideAll (refusal : Refusal) (earlier later : List Registrar) (start : SharedCache) :
    ∃ reached finish reports reports',
      (provideAll refusal earlier).run start = (reports, reached)
      ∧ (provideAll refusal (earlier ++ later)).run start = (reports ++ reports', finish)
      ∧ ProvidesAll refusal earlier start (reports.map (·.result)) reached
      ∧ ProvidesAll refusal later reached (reports'.map (·.result)) finish
      ∧ ∀ table, reached.held = some table →
          finish.held = some table ∧ ∀ report ∈ reports', report.result = .ok table := by
  have hearlier := providesAll_run_provideAll refusal earlier start
  have hlater := providesAll_run_provideAll refusal later ((provideAll refusal earlier).run start).2
  refine ⟨_, _, _, _, rfl, run_provideAll_append refusal earlier later start, hearlier, hlater, ?_⟩
  intro table hheld
  obtain ⟨hresults, hfinish⟩ := hlater.of_held hheld
  refine ⟨(congrArg held hfinish).trans hheld, fun report hreport => ?_⟩
  exact List.eq_of_mem_replicate (hresults ▸ List.mem_map_of_mem hreport)

/-- A malformed declaration is reported; the cache takes the second offer and not the first; and behind
that the malformed declaration is not looked at any more. -/
theorem run_provideAll_refused : ∃ table reached finish reports reports',
    let malformed : Registrar := fun _ => ⟨.standard, [.ofPath ["GET"] "/a"]⟩
    let empty : Registrar := fun _ => ⟨.standard, []⟩
    let refusal : Refusal := fun shared _ => if shared.log.length < 6 then some ⟨"full"⟩ else none
    RouteTable.build .standard [] = .ok table
      ∧ (provideAll refusal [malformed, empty, empty]).run ⟨none, []⟩ = (reports, reached)
      ∧ reports.map (·.result) = [.error (.noAction "/a"), .ok table, .ok table]
      ∧ reached.held = some table
      ∧ (provideAll refusal [malformed, empty, empty, malformed]).run ⟨none, []⟩
        = (reports ++ reports', finish)
      ∧ finish.held = some table ∧ ∀ report ∈ reports', report.result = .ok table := by
  obtain ⟨reached, finish, reports, reports', hearlier, hall, -, -, hkeeps⟩ :=
    run_provideAll (fun shared _ => if shared.log.length < 6 then some ⟨"full"⟩ else none)
      [fun _ => ⟨.standard, [.ofPath ["GET"] "/a"]⟩, fun _ => ⟨.standard, []⟩, fun _ => ⟨.standard, []⟩]
      [fun _ => ⟨.standard, [.ofPath ["GET"] "/a"]⟩] ⟨none, []⟩
  have hresults := congrArg (fun run => run.1.map (·.result)) hearlier
  have hheld := congrArg (fun run => run.2.held) hearlier
  obtain ⟨hfinish, hprovided⟩ := hkeeps _ hheld.symm
  exact ⟨_, reached, finish, reports, reports', rfl, hearlier, hresults.symm, hheld.symm, hall, hfinish,
    hprovided⟩

end SharedCache

end UriRouting
