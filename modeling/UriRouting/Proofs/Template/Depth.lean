import UriRouting.Proofs.Template.Structure
/-!
# The depth of a template's pattern

Two limits keep templates from being nested too deeply: the reader counts open segments, and a pattern
counts what its text nests. An optional segment is a group that may be repeated, and what it holds is a
sequence if it is more than one item, so a segment can cost three levels of the pattern. The limit of the
pattern is less than three times that of the reader. So a template that was read may have no pattern, though
nothing but its depth is in the way. The one other thing that can be in the way is its size.

Main statement: `Template.compile_iff_patternDepth` says which of the templates that were read can be made.
-/

namespace UriRouting

namespace Template

section

variable {book : RuleBook} {raw : String} {path : Tree} {host : Option TemplateSide}

/-- Where the variables can be made, the depth and the size of the trees decide. -/
theorem exists_compile_eq (hpath : Tree.parse (stripSlashes raw) = .ok path)
    (hhost : ∀ side ∈ host, Tree.parse side.text = .ok side.tree)
    (hnodup : (namesOf path (host.map (·.tree))).Nodup)
    (hmakes : ∀ site ∈ sitesIn path (host.map (·.tree)), site.Makes book) :
    ∃ template, compile book raw (host.map (·.text))
      = if Pattern.maxNesting < patternDepth path (host.map (·.tree)) then .error (.pattern .tooDeep)
        else if Pattern.maxSize < patternSize path (host.map (·.tree)) then .error (.pattern .tooBig)
        else .ok template := by
  have hdistinct : ((sitesIn path (host.map (·.tree))).map (·.name)).Nodup := by
    rwa [map_name_sitesIn]
  obtain ⟨vars, hvars⟩ := (@exists_compileSites_iff book [] _ hdistinct (by simp)).2 hmakes
  refine ⟨⟨⟨stripSlashes raw, path⟩, host, vars,
    ⟨patternSource path (host.map (·.tree)), patternNode path (host.map (·.tree))⟩⟩, ?_⟩
  rw [compile_eq_of_vars hpath hhost hvars, nesting_patternNode, compiledSize_patternNode]

/-- A template that was read, with variables of different names whose rules can be made and whose defaults
satisfy them, can be made if and only if its pattern is neither too deep nor too big, and else this is what
is reported. A pattern is not too deep if no more than 82 optional segments of the path and 81 of the host
stand inside one another. -/
theorem compile_iff_patternDepth (hpath : Tree.parse (stripSlashes raw) = .ok path)
    (hhost : ∀ side ∈ host, Tree.parse side.text = .ok side.tree)
    (hnodup : (namesOf path (host.map (·.tree))).Nodup)
    (hmakes : ∀ site ∈ sitesIn path (host.map (·.tree)), site.Makes book) :
    ((∃ template, compile book raw (host.map (·.text)) = .ok template)
        ↔ patternDepth path (host.map (·.tree)) ≤ Pattern.maxNesting
          ∧ patternSize path (host.map (·.tree)) ≤ Pattern.maxSize)
      ∧ (Pattern.maxNesting < patternDepth path (host.map (·.tree)) →
        compile book raw (host.map (·.text)) = .error (.pattern .tooDeep))
      ∧ (patternDepth path (host.map (·.tree)) ≤ Pattern.maxNesting →
        Pattern.maxSize < patternSize path (host.map (·.tree)) →
        compile book raw (host.map (·.text)) = .error (.pattern .tooBig))
      ∧ (path.optionalDepth ≤ 82 → (∀ side ∈ host, side.tree.optionalDepth ≤ 81) →
        patternSize path (host.map (·.tree)) ≤ Pattern.maxSize →
        ∃ template, compile book raw (host.map (·.text)) = .ok template) := by
  obtain ⟨template, hcompile⟩ := exists_compile_eq hpath hhost hnodup hmakes
  have hmade : (∃ template, compile book raw (host.map (·.text)) = .ok template)
      ↔ patternDepth path (host.map (·.tree)) ≤ Pattern.maxNesting
        ∧ patternSize path (host.map (·.tree)) ≤ Pattern.maxSize := by
    by_cases hdeep : Pattern.maxNesting < patternDepth path (host.map (·.tree))
    · simp [hcompile, if_pos hdeep, Nat.not_le_of_lt hdeep]
    by_cases hbig : Pattern.maxSize < patternSize path (host.map (·.tree))
    · simp [hcompile, if_neg hdeep, if_pos hbig, Nat.not_le_of_lt hbig]
    · rw [if_neg hdeep, if_neg hbig] at hcompile
      exact iff_of_true ⟨template, hcompile⟩ ⟨Nat.le_of_not_lt hdeep, Nat.le_of_not_lt hbig⟩
  refine ⟨hmade, ?_, ?_, ?_⟩
  · intro hdeep
    rw [hcompile, if_pos hdeep]
  · intro hflat hbig
    rw [hcompile, if_neg (Nat.not_lt_of_le hflat), if_pos hbig]
  · intro hpathDepth hhostDepth hsmall
    refine hmade.2 ⟨patternDepth_le_maxNesting hpathDepth ?_, hsmall⟩
    simpa using hhostDepth

/-- A rule, a default and segments on both sides. -/
theorem compile_iff_patternDepth_segments : ∃ template,
    compile .standard "/a[/b[/:x(int)=1]]" (some "[w[w].]:h") = .ok template := by
  have hparse : Tree.parse (stripSlashes "/a[/b[/:x(int)=1]]") = .ok (.sequence [.literal "a",
      .optional [.literal "/b", .optional [.literal "/", .variable "x" [⟨"int", []⟩] (some "1")]]]) := by
    cbv
    exact eq_of_bind_read (by cbv)
  have hint : Resolves .standard [⟨"int", []⟩] ∧ Satisfies .standard [⟨"int", []⟩] "1" := by
    simp only [Resolves, Satisfies, List.forall_mem_singleton]
    refine ⟨⟨.int, rfl⟩, ?_⟩
    rintro rule ⟨⟩
    decide
  have hnone : Resolves .standard [] := List.forall_mem_nil _
  have h := @compile_iff_patternDepth .standard "/a[/b[/:x(int)=1]]" _
    (some ⟨"[w[w].]:h", .sequence [.optional [.literal "w", .optional [.literal "w"], .literal "."],
      .variable "h" [] none]⟩)
    hparse (by rintro side ⟨⟩; cbv) (by decide)
    (by simp [sitesIn, sites, sitesOf, Site.Makes, hint, hnone])
  exact h.1.2 ⟨by decide, by decide +kernel⟩

end

/-! ## A letter in each of many segments -/

/-- Optional segments inside one another, with a letter in each. -/
def letters : Nat → Tree
  | 0 => .optional [.literal "a"]
  | n + 1 => .optional [.literal "a", letters n]

theorem chars_letters (n : Nat) :
    (letters n).chars
      = (List.replicate (n + 1) "[a".toList).flatten ++ List.replicate (n + 1) ']' := by
  induction n with
  | zero => rfl
  | succ n ih =>
    rw [letters, Tree.chars, Tree.charsOf, Tree.charsOf, Tree.charsOf, Tree.chars, ih,
      List.replicate_succ (n := n + 1), List.flatten_cons, List.replicate_succ' (n := n + 1)]
    simp

theorem grammatical_letters {n depth : Nat} (h : n < depth) : Tree.Grammatical depth (letters n) := by
  have hletter : ∀ depth, Tree.Grammatical depth (.literal "a") :=
    fun depth => .literal (by decide) (by simp [isStructural])
  induction n generalizing depth with
  | zero =>
    obtain ⟨depth, rfl⟩ := Nat.exists_eq_add_of_lt h
    exact .optional (by simp) (by simpa using hletter _) (by simp)
  | succ n ih =>
    obtain ⟨depth, rfl⟩ := Nat.exists_eq_add_of_lt h
    refine .optional (by simp) (by simpa using ⟨hletter _, ih (by omega)⟩) ?_
    cases n <;> simp [letters, Tree.Adjoins]

theorem patternDepth_letters (n : Nat) : (letters n).patternDepth .path = 3 * n + 2 := by
  induction n with
  | zero => rfl
  | succ n ih =>
    have hcount : (letters n).itemCount = 1 := by cases n <;> rfl
    simp [letters, Tree.patternDepth, Tree.patternDepthOf, Tree.itemCountOf, Tree.itemCount, ih, hcount]
    omega

/-- A letter is a state, and the segment around it is a choice and a state. -/
theorem patternSize_letters (direction : Pattern.Direction) (n : Nat) :
    (letters n).patternSize direction .path = 104 * (n + 1) := by
  have hletter : (Tree.literal "a").patternSize direction .path = 32 := by
    cases direction <;> decide
  have hsegment : Pattern.choiceSize + Pattern.stateSize = 72 := rfl
  induction n with
  | zero =>
    rw [letters, Tree.patternSize, if_neg (by decide), Tree.patternSizeOf, Tree.patternSizeOf, hletter]
    omega
  | succ n ih =>
    rw [letters, Tree.patternSize, if_neg (by simp [Tree.itemCountOf, Tree.itemCount]),
      Tree.patternSizeOf, Tree.patternSizeOf, Tree.patternSizeOf, hletter, ih]
    omega

theorem sites_letters (n : Nat) (optional : Bool) : sites optional (letters n) = [] := by
  induction n generalizing optional with
  | zero => rfl
  | succ n ih => simp [letters, sites, sitesOf, ih]

/-- The reader takes segments of letters up to its limit. -/
theorem parse_letters {n : Nat} (h : n < maxNesting) :
    Tree.parse (Tree.sequence [letters n]).text = .ok (.sequence [letters n]) :=
  parse_text_of_allGrammatical ⟨by simpa using grammatical_letters h, by simp⟩

/-- Of segments of letters that are read the first 83 can be made. -/
theorem compile_letters {n : Nat} (h : n < maxNesting) :
    ∃ template, compile .standard (Tree.sequence [letters n]).text none
      = if n < 83 then .ok template else .error (.pattern .tooDeep) := by
  have hparse : Tree.parse (stripSlashes (Tree.sequence [letters n]).text) = .ok (.sequence [letters n]) := by
    rw [stripSlashes_eq_self (by cases n <;> simp [Tree.text, Tree.chars, Tree.charsOf, letters]),
      parse_letters h]
  have hsites : sitesIn (.sequence [letters n]) none = [] := by
    simp [sitesIn, sites, sitesOf, sites_letters]
  have hnames : namesOf (.sequence [letters n]) none = [] := by
    rw [← map_name_sitesIn, hsites, List.map_nil]
  have hdepth : patternDepth (.sequence [letters n]) none = 3 * n + 3 := by
    simp [patternDepth, hostDepth, Tree.patternDepth, Tree.patternDepthOf, patternDepth_letters]
  have hsize : patternSize (.sequence [letters n]) none ≤ Pattern.maxSize := by
    have hhost : ∀ direction, hostSize direction none ≤ 1004 := by
      intro direction
      cases direction <;> decide +kernel
    have hautomaton : ∀ direction,
        automatonSize direction (.sequence [letters n]) none ≤ Pattern.maxSize := by
      intro direction
      have hcapture : Pattern.captureSize direction ≤ 64 := by cases direction <;> decide
      have hopen := hhost direction
      rw [automatonSize, Tree.patternSize, Tree.patternSizeOf, Tree.patternSizeOf, patternSize_letters,
        Pattern.stateSize, Pattern.maxSize]
      rw [maxNesting] at h
      omega
    exact Nat.max_le.2 ⟨hautomaton .onward, hautomaton .backward⟩
  obtain ⟨template, hcompile⟩ := @exists_compile_eq .standard _ _ none hparse (by simp) (by simp [hnames])
    (by simp [hsites])
  refine ⟨template, hcompile.trans ?_⟩
  rw [Option.map_none, if_neg (Nat.not_lt_of_le hsize), hdepth, Pattern.maxNesting]
  by_cases hfew : n < 83
  · rw [if_pos hfew, if_neg (by omega)]
  · rw [if_neg hfew, if_pos (by omega)]

/-- The reader takes 84 segments inside one another, and there is no variable that could offend, but the
pattern is too deep. -/
theorem compile_eighty_four_segments :
    let text := String.ofList ((List.replicate 84 "[a".toList).flatten ++ List.replicate 84 ']')
    (∃ tree, Tree.parse text = .ok tree ∧ tree.variableNames = [])
      ∧ compile .standard text none = .error (.pattern .tooDeep) := by
  have hletters : 83 < maxNesting := by decide
  have htext : (Tree.sequence [letters 83]).text
      = String.ofList ((List.replicate 84 "[a".toList).flatten ++ List.replicate 84 ']') := by
    rw [Tree.text, Tree.chars, Tree.charsOf, Tree.charsOf, List.append_nil, chars_letters]
  obtain ⟨template, hcompile⟩ := compile_letters hletters
  refine htext ▸ ⟨⟨_, parse_letters hletters, ?_⟩, hcompile.trans (if_neg (by decide))⟩
  rw [← map_name_sites false, sites, sitesOf, sites_letters, sitesOf]
  rfl

end Template

end UriRouting
