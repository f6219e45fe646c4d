import UriRouting.Proofs.Template.Matching
import UriRouting.Proofs.Template.Limits
import UriRouting.Proofs.Template.Resolved
import UriRouting.Proofs.Template.TextGrammar
import UriRouting.Proofs.Template.Written
/-!
# Paths of one variable

A path that is one variable shows what the rules of the variable do. It can be made if its rules can, and
whatever stands behind the first slash of a request goes to the variable as a whole: the rules are tried
on it in order.

* `Template.ofVariable` is the template, and `compile_eq_map_ofVariable` says what keeps it from being made;
* `extract_ofVariable` says what it makes of a request.
-/

namespace UriRouting

open UriRouting.Tree UriRouting.Template

namespace Template

/-- The template of a path that is one variable. -/
def ofVariable (raw name : String) (calls : List RuleCall) (rules : List Rule) : Template where
  path := ⟨raw, .sequence [.variable name calls none]⟩
  host := none
  vars := [⟨name, calls, rules, none, false, valueType rules⟩]
  pattern :=
    ⟨patternSource (.sequence [.variable name calls none]) none,
      patternNode (.sequence [.variable name calls none]) none⟩

section

variable {book : RuleBook} {raw name : String} {calls : List RuleCall}

theorem ofSource_variable (hname : IsName name.toList) (calls : List RuleCall) :
    Pattern.ofSource (patternSource (.sequence [.variable name calls none]) none)
      = .ok ⟨patternSource (.sequence [.variable name calls none]) none,
          patternNode (.sequence [.variable name calls none]) none⟩ := by
  have hnames : namesOf (.sequence [.variable name calls none]) none = [name] := by
    simp [namesOf, Tree.variableNames, variableNamesOf]
  refine ofSource_patternSource_of_le (by simpa [hnames] using hname) (by simp [hnames])
    (Nat.le_of_ble_eq_true rfl) ?_
  -- neither the name nor the calls are in the size
  simp only [compiledSize_patternNode, patternSize, automatonSize, Tree.patternSize, Tree.patternSizeOf]
  decide +kernel

/-- A path that is one variable can be made if the rules of the variable can. -/
theorem compile_eq_map_ofVariable (hname : IsName name.toList) (hraw : stripSlashes raw = raw)
    (hparse : Tree.parse raw = .ok (.sequence [.variable name calls none])) :
    compile book raw none = (resolveRules book name calls).map (ofVariable raw name calls) := by
  have hsites : sitesIn (.sequence [.variable name calls none]) none = [⟨name, calls, none, false⟩] := by
    simp [sitesIn, sites, sitesOf]
  have hcompile := @compile_eq_of_parse book raw _ none (by rwa [hraw]) (by simp)
  rw [Option.map_none, Option.map_none, hsites, ofSource_variable hname calls, hraw] at hcompile
  rw [hcompile]
  cases hrules : resolveRules book name calls with
  | error e => simp [compileSites, compileSite, hrules, Except.map]
  | ok rules => simp [compileSites, compileSite, hrules, Except.map, ofVariable]

/-- The names of the built-in rules are names. -/
theorem isName_of_mem_builtInSlugs {slug : String} (h : slug ∈ Rule.builtInSlugs) :
    IsName slug.toList := by
  have htake : ∀ slug ∈ Rule.builtInSlugs, takeName? slug.toList = some (slug.toList, []) := by decide
  exact (takeName?_eq_some (htake slug h)).1

theorem isListed_of_mem_builtInSlugs {slug : String} (h : slug ∈ Rule.builtInSlugs)
    {arguments : List Value} (harguments : ∀ value ∈ arguments, value.IsArgument) :
    RuleCall.IsListed ⟨slug, arguments⟩ :=
  ⟨isName_of_mem_builtInSlugs h, harguments⟩

/-- The rules in parentheses may be spelled in any way. -/
theorem compile_of_rulesSource {name text : List Char} (hname : IsName name)
    (htext : RulesSource text calls) :
    compile book (String.ofList (':' :: (name ++ '(' :: text))) none
      = (resolveRules book (String.ofList name) calls).map
          (ofVariable (String.ofList (':' :: (name ++ '(' :: text))) (String.ofList name) calls) :=
  compile_eq_map_ofVariable (by simpa using hname) (stripSlashes_eq_self (by simp)) (parse_rules hname htext)

/-- Rules can be given as values. -/
theorem compile_of_isListed (hname : IsName name.toList) (hcalls : ∀ call ∈ calls, call.IsListed) :
    compile book (Tree.sequence [.variable name calls none]).text none
      = (resolveRules book name calls).map
          (ofVariable (Tree.sequence [.variable name calls none]).text name calls) := by
  refine compile_eq_map_ofVariable hname ?_ ?_
  · exact stripSlashes_eq_self (by simp [Tree.text, Tree.chars, Tree.charsOf])
  · exact parse_text_of_allGrammatical
      ⟨by simpa using Grammatical.variable hname hcalls (by simp), by simp⟩

/-- A segment is derived in one way: the variable takes the whole of it. -/
theorem derives_ofVariable_iff {rules : List Rule} {host text : String} (hne : text ≠ "")
    (hslash : '/' ∉ text.toList) {choices : List Nat} {captured : List (String × List Char)} :
    (ofVariable raw name calls rules).Derives host ("/" ++ text) choices captured
      ↔ choices = [text.toList.length] ∧ captured = [(name, text.toList)] := by
  have hstrip : stripSlashes ("/" ++ text) = text := by
    refine stripSlashes_append ?_
    intro hhead
    exact hslash (List.mem_of_mem_head? hhead)
  have hfree : ∀ c ∈ text.toList, Side.path.forbids c = false := by
    intro c hc
    have hc' : c ≠ '/' := fun heq => hslash (heq ▸ hc)
    simpa [Side.forbids] using hc'
  constructor
  · rintro ⟨hany, hown⟩
    rw [hstrip] at hown
    obtain ⟨-, -, rfl, rfl⟩ := derives_sequence_variable.1 hown
    cases hany
    exact ⟨rfl, rfl⟩
  · rintro ⟨rfl, rfl⟩
    have hany : DerivesHost (ofVariable raw name calls rules).hostTree? host.toList [] [] := .any _
    refine .intro hany ?_
    rw [hstrip]
    exact derives_sequence_variable.2 ⟨by simpa using hne, hfree, rfl, rfl⟩

/-- What stands behind the first slash goes to the variable, and its rules are tried on it in order. -/
theorem extract_ofVariable {rules : List Rule}
    (h : compile book raw none = .ok (ofVariable raw name calls rules)) {host text : String}
    (hhost : separator ∉ host.toList) (hne : text ≠ "") (hslash : '/' ∉ text.toList) :
    (ofVariable raw name calls rules).extract (subject host ("/" ++ text))
      = match rules.find? (!·.passes text) with
        | some rule => .rejected name rule.slug
        | none => .matched [(name, .coerce (valueType rules) text)] := by
  obtain ⟨-, -, hcompiled⟩ := compile_eq_ok h
  obtain ⟨captures, _, captured, hextract, hfavours, hget⟩ :=
    hcompiled.exists_captures (by simp [Separable, hostTree?, ofVariable]) hhost
      ((derives_ofVariable_iff hne hslash).2 ⟨rfl, rfl⟩)
  obtain ⟨-, rfl⟩ := (derives_ofVariable_iff hne hslash).1 hfavours.derives
  have htext : captures.get? name = some text := by simp [hget]
  rw [hextract]
  cases hfailed : rules.find? (!·.passes text) with
  | some rule => simp [ofVariable, readVariables, Variable.text?, htext, Variable.failedRule?, hfailed]
  | none => simp [ofVariable, readVariables, Variable.text?, htext, Variable.failedRule?, hfailed]

end

end Template

end UriRouting
