import UriRouting.Proofs.Template.OneVariable
/-!
# Patterns without quotes

An argument without quotes is first read as a value and then, for a pattern, taken as the text of the value.
Truth values and texts are written as they were read. A number is too if it is written plainly, so without
leading zeros, without a plus and not otherwise than the program writes it; else the pattern is another than
the one in the template.

* `IsPlain` says that a text is no number or is written as the number that it is, and
  `text_ofLiteral_eq_iff` that this is what it takes to be kept;
* `compile_unquotedPattern` says what a variable with a pattern has as its rule.
-/

namespace UriRouting

open UriRouting.Number UriRouting.Tree UriRouting.Template

namespace Value

/-- A text that is written as the number that it reads as, if it reads as one. -/
structure IsPlain (text : String) : Prop where
  /-- An integer is written as an integer. -/
  int : ∀ i, readInteger text.toList = some i → text.toList = writeInteger i
  /-- Another number is written as a number. -/
  float : readInteger text.toList = none → looksNumeric text.toList = true →
    ∀ x, Binary64.ofText? text.toList = some x → x.isFinite = true →
      text.toList = x.write Binary64.plainStyle

/-- What an unquoted literal is written as is the literal if it is no number in another spelling. -/
theorem text_ofLiteral_eq_iff (text : String) : (ofLiteral text).text = text ↔ IsPlain text := by
  have heq : ∀ cs : List Char, String.ofList cs = text ↔ text.toList = cs := by
    intro cs
    rw [← String.toList_inj, String.toList_ofList, eq_comm]
  cases hint : readInteger text.toList with
  | some i =>
    have hvalue : ofLiteral text = .int i := by simp [ofLiteral, hint]
    rw [hvalue, Value.text, heq]
    constructor
    · intro htext
      exact ⟨by simp [htext, readInteger_writeInteger], by simp [hint]⟩
    · intro h
      exact h.int i hint
  | none =>
    cases hfloat : (Binary64.ofText? text.toList).filter fun x => looksNumeric text.toList && x.isFinite with
    | some x =>
      have hvalue : ofLiteral text = .float x := by simp [ofLiteral, hint, hfloat]
      obtain ⟨hread, hfinite⟩ := Option.filter_eq_some_iff.1 hfloat
      rw [Bool.and_eq_true] at hfinite
      rw [hvalue, Value.text, heq]
      constructor
      · intro htext
        exact ⟨by simp [hint], by simp [hread, ← htext]⟩
      · intro h
        exact h.float hint hfinite.1 x hread hfinite.2
    | none =>
      have hplain : IsPlain text := by
        refine ⟨by simp [hint], ?_⟩
        intro _ hlooks x hread hfinite
        simp [hread, hlooks, hfinite] at hfloat
      refine iff_of_true ?_ hplain
      simp only [ofLiteral, hint, hfloat]
      split_ifs with htrue hfalse
      · simpa [Value.text] using (beq_iff_eq.1 htrue).symm
      · simpa [Value.text] using (beq_iff_eq.1 hfalse).symm
      · rfl

end Value

namespace Template

/-- A variable with a pattern without quotes can be made if the pattern can. -/
theorem compile_regexWord {word : String} (hword : IsWord word.toList) :
    compile .standard (":x(regex(" ++ word ++ "))") none
      = (resolveRules .standard "x"
            [⟨"regex", [.ofLiteral (String.ofList (Text.trimBlanks word.toList))]⟩]).map
          (ofVariable (":x(regex(" ++ word ++ "))") "x"
            [⟨"regex", [.ofLiteral (String.ofList (Text.trimBlanks word.toList))]⟩]) := by
  have hname : IsName ['x'] := ⟨'x', [], rfl, rfl, rfl⟩
  have hargument := ArgumentsSource.word isGap_nil hword (by simp) (.nil isGap_nil)
  have hblanks : IsBlanks [] := List.forall_mem_nil _
  have hsource := RulesSource.last hblanks
    (.applied (isName_of_mem_builtInSlugs (by decide : "regex" ∈ Rule.builtInSlugs)) hargument) hblanks
  have hraw : String.ofList (':' :: (['x'] ++ '(' :: ([] ++ ("regex".toList
      ++ '(' :: ([] ++ word.toList ++ [] ++ [')']) ++ ([] ++ [')']))))) = ":x(regex(" ++ word ++ "))" := by
    rw [← String.toList_inj]
    simp
  have hcompile := @compile_of_rulesSource .standard _ _ _ hname hsource
  rwa [hraw] at hcompile

/-- A variable with a pattern without quotes has this one rule, or the argument is no pattern. The pattern is
what the argument is written as, and this is the argument itself, without blanks around it, if and only if
that is no number in another spelling. -/
theorem compile_unquotedPattern {word : String} (hword : IsWord word.toList) :
    let text := String.ofList (Text.trimBlanks word.toList)
    let source := (Value.ofLiteral text).text
    (source = text ↔ Value.IsPlain text)
      ∧ match Pattern.ofSource source with
        | .error fault => compile .standard (":x(regex(" ++ word ++ "))") none
            = .error (.rule (some "x") (.arguments "regex" (.pattern fault)))
        | .ok pattern => pattern.source = source
            ∧ ∃ template v, compile .standard (":x(regex(" ++ word ++ "))") none = .ok template
              ∧ template.vars = [v] ∧ v.name = "x" ∧ v.rules = [.pattern pattern] := by
  intro text source
  refine ⟨Value.text_ofLiteral_eq_iff text, ?_⟩
  have hcompile := compile_regexWord hword
  rw [resolveRules_regex] at hcompile
  cases hpattern : Pattern.ofSource source with
  | error fault =>
    rw [hpattern] at hcompile
    exact hcompile
  | ok pattern =>
    rw [hpattern] at hcompile
    exact ⟨source_of_ofSource hpattern, _, _, hcompile, rfl, rfl, rfl⟩

/-- Blanks behind a pattern do not count. -/
theorem compile_unquotedPattern_plus :
    Value.IsPlain "a+1" ∧ ∃ pattern template v, compile .standard ":x(regex(a+1 ))" none = .ok template
      ∧ template.vars = [v] ∧ v.rules = [.pattern pattern] ∧ pattern.source = "a+1" := by
  have hword : IsWord "a+1 ".toList := ⟨⟨'a', by decide, by decide, by decide⟩, by simp [endsArgument]⟩
  have htext : String.ofList (Text.trimBlanks "a+1 ".toList) = "a+1" := by decide
  have hsource : (Value.ofLiteral "a+1").text = "a+1" := by decide
  have hread : Pattern.Progress.finish {} "a+1".toList
      = .ok (.sequence [.repetition (.char 'a' false) 1 none true, .char '1' false]) := by
    rw [show "a+1".toList = ['a', '+', '1'] from rfl, Pattern.Progress.finish_of_step rfl,
      Pattern.Progress.finish_of_step rfl, Pattern.Progress.finish_of_step rfl, Pattern.Progress.finish]
    rfl
  have h := compile_unquotedPattern hword
  simp only [htext, hsource, ofSource_of_finish hread (by decide) (by decide +kernel), true_iff] at h
  obtain ⟨hplain, -, template, v, hcompile, hvars, -, hrules⟩ := h
  exact ⟨hplain, _, template, v, hcompile, hvars, hrules, rfl⟩

/-- A pattern of digits is a pattern, but loses its leading zeros. -/
theorem compile_pattern_of_zeros :
    (∃ pattern, Pattern.ofSource "007" = .ok pattern)
      ∧ ∃ pattern template v, compile .standard ":x(regex(007))" none = .ok template
        ∧ template.vars = [v] ∧ v.rules = [.pattern pattern] ∧ pattern.source = "7" := by
  have hgiven : Pattern.Progress.finish {} "007".toList
      = .ok (.sequence [.char '0' false, .char '0' false, .char '7' false]) := by
    rw [show "007".toList = ['0', '0', '7'] from rfl, Pattern.Progress.finish_of_step rfl,
      Pattern.Progress.finish_of_step rfl, Pattern.Progress.finish_of_step rfl, Pattern.Progress.finish]
    rfl
  have hread : Pattern.Progress.finish {} "7".toList = .ok (.char '7' false) := by
    rw [show "7".toList = ['7'] from rfl, Pattern.Progress.finish_of_step rfl, Pattern.Progress.finish]
    rfl
  have hword : IsWord "007".toList := ⟨⟨'0', by decide, by decide, by decide⟩, by simp [endsArgument]⟩
  have hsource : (Value.ofLiteral (String.ofList (Text.trimBlanks "007".toList))).text = "7" := by
    decide
  have hcompile := compile_regexWord hword
  rw [resolveRules_regex, hsource, ofSource_of_finish hread (by decide) (by decide +kernel)] at hcompile
  exact ⟨⟨_, ofSource_of_finish hgiven (by decide) (by decide +kernel)⟩, _, _, _, hcompile, rfl, rfl, rfl⟩

end Template

end UriRouting
