import UriRouting.Proofs.Template.Matching
/-!
# Searches in texts of any kind

The host of a request may hold the separator, and so may a literal in the host of a template. Then the
text that a request is tested as can be cut at more than one place, and a search finds a cut at which
both sides are derived.

* `Template.Covers` says that a text is cut into a host and a path that are derived from a template;
* `IsCompiled.covers_of_search` and `IsCompiled.exists_search_of_covers` say that a search finds a cut if
  and only if there is one.
-/

namespace UriRouting

open Pattern UriRouting.Tree

namespace Template

/-- A text is a host, the separator and a path, and both are derived from a template. Without a host in
the template, the host goes up to the first separator. -/
inductive Covers (template : Template) : List Char → List (String × List Char) → Prop where
  | intro {host path : List Char} {choices choices' : List Nat}
      {captured captured' : List (String × List Char)}
      (hfree : template.hostTree? = none → separator ∉ host)
      (h : DerivesHost template.hostTree? host choices captured)
      (h' : Tree.Derives .path template.path.tree path choices' captured') :
      Covers template (host ++ separator :: path) (captured ++ captured')

/-! ## Ways over any text -/

/-- Every way over the host and the separator is a cut of the text. -/
theorem mem_frontWays_iff_cut {host : Option Tree} {text : List Char} {way : Way} :
    way ∈ frontWays host ⟨text, [], []⟩ ↔
      ∃ front rest choices captured, text = front ++ separator :: rest
        ∧ (host = none → separator ∉ front) ∧ DerivesHost host front choices captured
        ∧ way = ⟨rest, choices, captured⟩ := by
  cases host with
  | none =>
    constructor
    · intro hway
      have hmem : separator ∈ text := by
        obtain ⟨between, hbetween, htaken⟩ := List.mem_flatMap.1 hway
        obtain ⟨rest, hrest, -⟩ := rest_of_mem_taken htaken
        obtain ⟨count, -, rfl⟩ := List.mem_map.1 hbetween
        have hdrop : separator ∈ text.drop count := by
          rw [Way.rest_extended] at hrest
          rw [hrest]
          exact List.mem_cons_self
        exact List.mem_of_mem_drop hdrop
      obtain ⟨front, rest, rfl, hfree⟩ := List.eq_append_cons_of_mem hmem
      rw [frontWays_none hfree, List.mem_singleton] at hway
      exact ⟨front, rest, [], [], rfl, fun _ => hfree, .any front, hway⟩
    · rintro ⟨front, rest, choices, captured, rfl, hfree, h, rfl⟩
      cases h
      rw [frontWays_none (hfree rfl), List.mem_singleton]
  | some host =>
    rw [frontWays, hostWays, List.mem_flatMap]
    constructor
    · rintro ⟨between, hbetween, hway⟩
      obtain ⟨front, choices, captured, rest, h, hrest, rfl⟩ := mem_ways_iff.1 hbetween
      obtain ⟨rest', hrest', rfl⟩ := rest_of_mem_taken hway
      rw [Way.rest_extended] at hrest'
      exact ⟨front, rest', choices, captured, hrest' ▸ hrest, by simp, .own h, rfl⟩
    · rintro ⟨front, rest, choices, captured, rfl, -, h, rfl⟩
      cases h with
      | own h =>
        refine ⟨⟨separator :: rest, choices, captured⟩, mem_ways_iff.2
          ⟨front, choices, captured, separator :: rest, h, rfl, rfl⟩, ?_⟩
        rw [taken_separator, List.mem_singleton]

variable {template : Template} {text : List Char}

theorem covers_of_mem_wholeWays {way : Way}
    (h : way ∈ wholeWays template.path.tree template.hostTree? ⟨text, [], []⟩) :
    template.Covers text way.captured := by
  rw [wholeWays, List.mem_filter, List.mem_flatMap, List.isEmpty_iff] at h
  obtain ⟨⟨between, hbetween, hway⟩, hend⟩ := h
  obtain ⟨front, path, choices, captured, rfl, hfree, hhost, rfl⟩ := mem_frontWays_iff_cut.1 hbetween
  obtain ⟨own, choices', captured', rest, hpath, hrest, rfl⟩ := mem_ways_iff.1 hway
  obtain rfl : rest = [] := hend
  obtain rfl : path = own := hrest.trans (List.append_nil own)
  exact .intro hfree hhost hpath

theorem wholeWays_ne_nil_of_covers {captured : List (String × List Char)}
    (h : template.Covers text captured) :
    wholeWays template.path.tree template.hostTree? ⟨text, [], []⟩ ≠ [] := by
  cases h with
  | @intro host path choices choices' captured captured' hfree h h' =>
    have hmem : ⟨[], choices ++ choices', captured ++ captured'⟩
        ∈ wholeWays template.path.tree template.hostTree? ⟨host ++ separator :: path, [], []⟩ := by
      rw [wholeWays, List.mem_filter, List.mem_flatMap]
      refine ⟨⟨⟨path, choices, captured⟩, mem_frontWays_iff_cut.2
        ⟨host, path, choices, captured, rfl, hfree, h, rfl⟩, ?_⟩, rfl⟩
      exact mem_ways_iff.2 ⟨path, choices', captured', [], h', (List.append_nil _).symm, rfl⟩
    exact List.ne_nil_of_mem hmem

/-! ## Searches -/

/-- A cover gives texts to variables of the template, in their order. -/
theorem Covers.names {captured : List (String × List Char)} (h : template.Covers text captured) :
    List.Sublist (captured.map (·.1)) (namesOf template.path.tree template.hostTree?) := by
  cases h with
  | intro _ h h' =>
    rw [List.map_append, namesOf]
    exact h.names.append (names_of_derives h')

/-- A cover gives texts to no variable twice. -/
theorem Covers.nodup_names {captured : List (String × List Char)} (h : template.Covers text captured)
    (hnames : (namesOf template.path.tree template.hostTree?).Nodup) :
    (captured.map (·.1)).Nodup :=
  List.Nodup.sublist h.names hnames

/-- What a search finds is a cover, and the groups capture its texts. -/
theorem IsCompiled.covers_of_search {book : RuleBook} (h : template.IsCompiled book) {text : String}
    {captures : Captures} (hsearch : template.pattern.search text = some captures) :
    ∃ captured, template.Covers text.toList captured
      ∧ ∀ name, captures.get? name = (captured.lookup name).map String.ofList := by
  obtain ⟨arrived, hshows, hfirst⟩ := h.exists_search_eq text
  cases arrived with
  | nil =>
    rw [hfirst] at hsearch
    cases hsearch
  | cons walk arrived =>
    rw [hfirst] at hsearch
    cases hsearch
    obtain ⟨way, others, hwalk, -, hways⟩ := List.forall₂_cons_left_iff.1 hshows
    have hcovers := covers_of_mem_wholeWays (hways ▸ List.mem_cons_self)
    exact ⟨way.captured, hcovers, hwalk.get?_captures (hcovers.nodup_names h.nodup_names)⟩

/-- A search finds something in a text that has a cover. -/
theorem IsCompiled.exists_search_of_covers {book : RuleBook} (h : template.IsCompiled book)
    {text : String} {captured : List (String × List Char)} (hcovers : template.Covers text.toList captured) :
    ∃ captures, template.pattern.search text = some captures := by
  obtain ⟨arrived, hshows, hfirst⟩ := h.exists_search_eq text
  cases arrived with
  | nil =>
    rw [List.forall₂_nil_left_iff] at hshows
    exact absurd hshows (wholeWays_ne_nil_of_covers hcovers)
  | cons walk arrived => exact ⟨_, hfirst⟩

end Template

end UriRouting
