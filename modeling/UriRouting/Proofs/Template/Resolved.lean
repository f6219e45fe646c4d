import UriRouting.Proofs.Template.Compiled
/-!
# Which variables can be made

The variables of a template can be made from a rule book if the book makes every rule that they call
for, and if the defaults satisfy the rules of their variables. If they cannot, a variable that fails
is reported, for one of these two reasons.

Main statements: `exists_compileSites_iff` and `exists_of_compileSites_eq_error`.
-/

namespace UriRouting

/-- The site that a variable stands at. -/
def Variable.site (v : Variable) : Template.Site :=
  ⟨v.name, v.calls, v.default, v.optional⟩

namespace Template

/-! ## Rules of a variable -/

/-- The book makes every rule that the calls ask for. -/
def Resolves (book : RuleBook) (calls : List RuleCall) : Prop :=
  ∀ call ∈ calls, ∃ rule, book.resolve call = .ok rule

/-- A text satisfies every rule that the book makes for the calls. -/
def Satisfies (book : RuleBook) (calls : List RuleCall) (text : String) : Prop :=
  ∀ call ∈ calls, ∀ rule, book.resolve call = .ok rule → rule.passes text = true

variable {book : RuleBook}

theorem resolves_cons {call : RuleCall} {calls : List RuleCall} :
    Resolves book (call :: calls) ↔ (∃ rule, book.resolve call = .ok rule) ∧ Resolves book calls :=
  List.forall_mem_cons

theorem satisfies_cons {call : RuleCall} {calls : List RuleCall} {text : String} :
    Satisfies book (call :: calls) text
      ↔ (∀ rule, book.resolve call = .ok rule → rule.passes text = true)
        ∧ Satisfies book calls text :=
  List.forall_mem_cons

/-- The rules of a variable are made one for one. -/
theorem forall₂_of_resolveRules {name : String} {calls : List RuleCall} {rules : List Rule}
    (h : resolveRules book name calls = .ok rules) :
    List.Forall₂ (fun call rule => book.resolve call = .ok rule) calls rules := by
  induction calls generalizing rules with
  | nil =>
    cases h
    exact .nil
  | cons call calls ih =>
    unfold resolveRules at h
    split at h
    · cases h
    rename_i rule hrule
    obtain ⟨rest, hrest, rfl⟩ := exists_of_map_eq_ok h
    exact .cons hrule (ih hrest)

/-- A rule with a pattern can be made if its argument is written as a pattern. -/
theorem resolveRules_regex (name : String) (value : Value) :
    resolveRules .standard name [⟨"regex", [value]⟩]
      = match Pattern.ofSource value.text with
        | .ok pattern => .ok [.pattern pattern]
        | .error fault => .error (.rule (some name) (.arguments "regex" (.pattern fault))) := by
  have hresolve : RuleBook.standard.resolve ⟨"regex", [value]⟩
      = (Rule.patterned [value]).mapError (.arguments "regex") :=
    rfl
  rw [resolveRules, hresolve, Rule.patterned]
  cases Pattern.ofSource value.text <;> rfl

/-- The rules of a variable are made if the book makes each. -/
theorem exists_resolveRules_of_resolves {calls : List RuleCall} (h : Resolves book calls)
    (name : String) : ∃ rules, resolveRules book name calls = .ok rules := by
  induction calls with
  | nil => exact ⟨[], rfl⟩
  | cons call calls ih =>
    obtain ⟨⟨rule, hrule⟩, hcalls⟩ := resolves_cons.1 h
    obtain ⟨rules, hrules⟩ := ih hcalls
    refine ⟨rule :: rules, ?_⟩
    rw [resolveRules, hrule, hrules]
    rfl

/-- Rules that cannot all be made fail at the first that the book does not make. -/
theorem resolveRules_eq_error_iff {name : String} {calls : List RuleCall} {e : DeclarationError} :
    resolveRules book name calls = .error e
      ↔ ∃ front call back fault, calls = front ++ call :: back ∧ Resolves book front
        ∧ book.resolve call = .error fault ∧ e = .rule (some name) fault := by
  induction calls with
  | nil => simp [resolveRules]
  | cons call calls ih =>
    rw [resolveRules]
    cases hcall : book.resolve call with
    | error fault =>
      constructor
      · intro h
        cases h
        exact ⟨[], call, calls, fault, rfl, List.forall_mem_nil _, hcall, rfl⟩
      · rintro ⟨front, failed, back, fault', hsplit, hfront, hfailed, rfl⟩
        rcases List.cons_eq_append_iff.1 hsplit with ⟨rfl, heq⟩ | ⟨front', rfl, -⟩
        · cases heq
          rw [hcall] at hfailed
          cases hfailed
          rfl
        · obtain ⟨⟨rule, hrule⟩, -⟩ := resolves_cons.1 hfront
          rw [hcall] at hrule
          cases hrule
    | ok rule =>
      have hmap : (resolveRules book name calls).map (rule :: ·) = .error e
          ↔ resolveRules book name calls = .error e := by
        cases resolveRules book name calls <;> simp [Except.map]
      show (resolveRules book name calls).map (rule :: ·) = .error e ↔ _
      rw [hmap, ih]
      constructor
      · rintro ⟨front, failed, back, fault, rfl, hfront, hfailed⟩
        exact ⟨call :: front, failed, back, fault, rfl, resolves_cons.2 ⟨⟨rule, hcall⟩, hfront⟩, hfailed⟩
      · rintro ⟨front, failed, back, fault, hsplit, hfront, hfailed, rfl⟩
        rcases List.cons_eq_append_iff.1 hsplit with ⟨rfl, heq⟩ | ⟨front', rfl, hcalls⟩
        · cases heq
          rw [hcall] at hfailed
          cases hfailed
        · exact ⟨front', failed, back, fault, hcalls, (resolves_cons.1 hfront).2, hfailed, rfl⟩

/-- A text satisfies the rules that were made just when it satisfies those that are called for. -/
theorem satisfies_iff_of_resolveRules {name : String} {calls : List RuleCall} {rules : List Rule}
    (h : resolveRules book name calls = .ok rules) (text : String) :
    Satisfies book calls text ↔ ∀ rule ∈ rules, rule.passes text = true := by
  have hmade := forall₂_of_resolveRules h
  clear h
  induction hmade with
  | nil => simp [Satisfies]
  | @cons call rule calls rules hrule _ ih =>
    rw [satisfies_cons, List.forall_mem_cons]
    exact and_congr (by simp [hrule]) ih

theorem resolves_of_resolveRules {name : String} {calls : List RuleCall} {rules : List Rule}
    (h : resolveRules book name calls = .ok rules) : Resolves book calls := by
  have hmade := forall₂_of_resolveRules h
  clear h
  induction hmade with
  | nil => exact List.forall_mem_nil _
  | cons hrule _ ih => exact resolves_cons.2 ⟨⟨_, hrule⟩, ih⟩

/-! ## Variables -/

/-- The variable at a site can be made from the book. -/
def Site.Makes (book : RuleBook) (site : Site) : Prop :=
  Resolves book site.calls ∧ ∀ text ∈ site.default, Satisfies book site.calls text

/-- A variable with a new name is made if its rules are, and its default satisfies them. -/
theorem exists_compileSite_of_makes {seen : List String} {site : Site} (h : site.Makes book)
    (hfresh : site.name ∉ seen) : ∃ v, compileSite book seen site = .ok v := by
  obtain ⟨rules, hrules⟩ := exists_resolveRules_of_resolves h.1 site.name
  have hdefault : site.default.filter (fun value => !rules.all (·.passes value)) = none := by
    rw [Option.filter_eq_none_iff]
    intro text htext
    have hpasses := (satisfies_iff_of_resolveRules hrules text).1 (h.2 text htext)
    simpa using hpasses
  refine ⟨⟨site.name, site.calls, rules, site.default, site.optional, valueType rules⟩, ?_⟩
  rw [compileSite, if_neg (by simpa using hfresh), hrules]
  simp only [hdefault]

theorem makes_of_compileSite {seen : List String} {site : Site} {v : Variable}
    (h : compileSite book seen site = .ok v) : site.Makes book := by
  obtain ⟨-, hrules, hdefault, -⟩ := compileSite_eq_ok h
  exact ⟨resolves_of_resolveRules hrules,
    fun text htext => (satisfies_iff_of_resolveRules hrules text).2 (hdefault text htext)⟩

/-- A variable with a new name that cannot be made has a rule that the book does not make, or a
default that does not satisfy its rules. -/
theorem exists_of_compileSite_eq_error {seen : List String} {site : Site} {e : DeclarationError}
    (h : compileSite book seen site = .error e) (hfresh : site.name ∉ seen) :
    (∃ call ∈ site.calls, ∃ fault, book.resolve call = .error fault
      ∧ e = .rule (some site.name) fault)
    ∨ ∃ text ∈ site.default, ¬ Satisfies book site.calls text
        ∧ e = .rejectedDefault site.name text := by
  unfold compileSite at h
  rw [if_neg (by simpa using hfresh)] at h
  split at h
  · rename_i hrules
    cases h
    obtain ⟨front, call, back, fault, hsplit, -, hfault, he⟩ := resolveRules_eq_error_iff.1 hrules
    exact Or.inl ⟨call, hsplit ▸ List.mem_append_cons_self, fault, hfault, he⟩
  rename_i rules hrules
  split at h
  · rename_i text hrejected
    cases h
    rw [Option.filter_eq_some_iff] at hrejected
    refine Or.inr ⟨text, hrejected.1, ?_, rfl⟩
    rw [satisfies_iff_of_resolveRules hrules]
    simpa using hrejected.2
  · cases h

/-- Of variables with different new names, those behind the first have names that are new there. -/
theorem fresh_cons {seen : List String} {site : Site} {places : List Site}
    (hnodup : ((site :: places).map (·.name)).Nodup)
    (hfresh : ∀ other ∈ site :: places, other.name ∉ seen) :
    site.name ∉ seen ∧ (∀ other ∈ places, other.name ∉ site.name :: seen)
      ∧ (places.map (·.name)).Nodup := by
  rw [List.map_cons, List.nodup_cons] at hnodup
  obtain ⟨hsite, hplaces⟩ := List.forall_mem_cons.1 hfresh
  refine ⟨hsite, ?_, hnodup.2⟩
  intro other hmem hother
  rcases List.mem_cons.1 hother with heq | hother
  · exact hnodup.1 (heq ▸ List.mem_map_of_mem hmem)
  · exact hplaces other hmem hother

/-- Variables with different new names can be made just when each can. -/
theorem exists_compileSites_iff {seen : List String} {places : List Site}
    (hnodup : (places.map (·.name)).Nodup) (hfresh : ∀ site ∈ places, site.name ∉ seen) :
    (∃ vars, compileSites book seen places = .ok vars) ↔ ∀ site ∈ places, site.Makes book := by
  induction places generalizing seen with
  | nil => simp [compileSites]
  | cons site places ih =>
    obtain ⟨hsite, hplaces, hnodup⟩ := fresh_cons hnodup hfresh
    rw [List.forall_mem_cons, ← ih hnodup hplaces]
    constructor
    · rintro ⟨vars, h⟩
      obtain ⟨v, rest, -, hv, hrest⟩ := compileSites_cons_eq_ok h
      exact ⟨makes_of_compileSite hv, rest, hrest⟩
    · rintro ⟨hmakes, rest, hrest⟩
      obtain ⟨v, hv⟩ := exists_compileSite_of_makes hmakes hsite
      refine ⟨v :: rest, ?_⟩
      rw [compileSites, hv, hrest]
      rfl

/-- Of variables with different new names that cannot all be made, one has a rule that the book does
not make, or a default that does not satisfy its rules. -/
theorem exists_of_compileSites_eq_error {seen : List String} {places : List Site}
    {e : DeclarationError} (h : compileSites book seen places = .error e)
    (hnodup : (places.map (·.name)).Nodup) (hfresh : ∀ site ∈ places, site.name ∉ seen) :
    ∃ site ∈ places,
      (∃ call ∈ site.calls, ∃ fault, book.resolve call = .error fault
        ∧ e = .rule (some site.name) fault)
      ∨ ∃ text ∈ site.default, ¬ Satisfies book site.calls text
          ∧ e = .rejectedDefault site.name text := by
  induction places generalizing seen with
  | nil => cases h
  | cons site places ih =>
    obtain ⟨hsite, hplaces, hnodup⟩ := fresh_cons hnodup hfresh
    unfold compileSites at h
    split at h
    · rename_i hfailed
      cases h
      exact ⟨site, List.mem_cons_self, exists_of_compileSite_eq_error hfailed hsite⟩
    · cases hrest : compileSites book (site.name :: seen) places with
      | ok rest =>
        rw [hrest] at h
        cases h
      | error e' =>
        rw [hrest] at h
        cases h
        obtain ⟨failed, hmem, hfailed⟩ := ih hrest hnodup hplaces
        exact ⟨failed, List.mem_cons_of_mem _ hmem, hfailed⟩

/-- Compiled variables stand at the sites that they were made for. -/
theorem map_site_of_compileSites {seen : List String} {places : List Site} {vars : List Variable}
    (h : compileSites book seen places = .ok vars) : vars.map (·.site) = places := by
  induction places generalizing seen vars with
  | nil =>
    cases h
    rfl
  | cons site places ih =>
    obtain ⟨v, rest, rfl, hv, hrest⟩ := compileSites_cons_eq_ok h
    obtain ⟨-, -, -, hparts⟩ := compileSite_eq_ok hv
    rw [List.map_cons, ih hrest, hparts]
    rfl

/-! ## Templates -/

/-- The variables of a path and a host, those of the host first. -/
def sitesIn (path : Tree) (host : Option Tree) : List Site :=
  host.elim [] (sites false) ++ sites false path

theorem map_name_sitesIn (path : Tree) (host : Option Tree) :
    (sitesIn path host).map (·.name) = namesOf path host := by
  rw [sitesIn, namesOf, List.map_append, map_name_sites]
  cases host with
  | none => rfl
  | some host =>
    rw [Option.elim_some, Option.elim_some, map_name_sites]

theorem allSites_eq_sitesIn (template : Template) :
    template.allSites = sitesIn template.path.tree template.hostTree? := by
  rw [allSites, sitesIn, hostTree?]
  cases template.host <;> rfl

/-- Compilation of texts that can be read makes the variables and then the pattern. -/
theorem compile_eq_of_parse {path : String} {tree : Tree} {host : Option TemplateSide}
    (hpath : Tree.parse (stripSlashes path) = .ok tree)
    (hhost : ∀ side ∈ host, Tree.parse side.text = .ok side.tree) :
    compile book path (host.map (·.text)) =
      match compileSites book [] (sitesIn tree (host.map (·.tree))) with
      | .error e => .error e
      | .ok vars =>
        match Pattern.ofSource (patternSource tree (host.map (·.tree))) with
        | .ok pattern => .ok ⟨⟨stripSlashes path, tree⟩, host, vars, pattern⟩
        | .error fault => .error (.pattern fault) := by
  cases host with
  | none =>
    simp only [compile, parseSide, hpath, sitesIn, bind, Except.bind, pure, Except.pure,
      Option.map_none, Option.getD_none, Option.elim_none]
    cases compileSites book [] ([] ++ sites false tree) with
    | error e => rfl
    | ok vars => cases Pattern.ofSource (patternSource tree none) <;> rfl
  | some side =>
    simp only [compile, parseSide, hpath, hhost side rfl, sitesIn, bind, Except.bind, pure,
      Except.pure, Except.map, Option.map_some, Option.getD_some, Option.elim_some]
    cases compileSites book [] (sites false side.tree ++ sites false tree) with
    | error e => rfl
    | ok vars => cases Pattern.ofSource (patternSource tree (some side.tree)) <;> rfl

end Template

end UriRouting
