import UriRouting.Proofs.Template.OneVariable
/-!
# Members in quotes

A member in quotes may be any text, also one that looks like a number, that holds quotes, commas or
parentheses, or that is empty: the rule has it as its member, character for character. So a variable with
a list of such members takes these texts and no others, and gives them as they are.

* `resolveRules_in` says what the rule is;
* `extract_quotedMembers` says what a path of one variable makes of a request.
-/

namespace UriRouting

open UriRouting.Tree UriRouting.Template

/-- Texts are compared as texts. -/
theorem Rule.passes_oneOf_string (members : List String) (text : String) :
    (Rule.oneOf (members.map .string)).passes text = decide (text ∈ members) := by
  rw [Bool.eq_iff_iff, decide_eq_true_iff]
  simp [passes, Value.matchesText]

namespace Template

/-- A rule with members can be made if there is a member. -/
theorem resolveRules_in (name : String) {values : List Value} (hne : values ≠ []) :
    resolveRules .standard name [⟨"in", values⟩] = .ok [.oneOf values] := by
  cases values with
  | nil => exact absurd rfl hne
  | cons value values => rfl

/-- A variable with members in quotes, as it is written. -/
theorem text_quotedMembers {members : List String} (hne : members ≠ []) :
    (Tree.sequence [.variable "x" [⟨"in", members.map .string⟩] none]).text
      = ":x(in("
        ++ String.ofList (Text.joinCommas (members.map fun member => Text.quoteArgument member.toList))
        ++ "))" := by
  cases members with
  | nil => exact absurd rfl hne
  | cons member members =>
    rw [← String.toList_inj]
    simp [Tree.text, Tree.chars, Tree.charsOf, RuleCall.listChars, RuleCall.chars, Text.joinCommas,
      defaultChars, Value.argumentChars, Function.comp_def]

/-- A path that is one variable with members in quotes can be made. A request that stands for one of the
members gives this member to the variable, and any other fails the rule. -/
theorem extract_quotedMembers {members : List String} (hne : members ≠ []) :
    ∃ template,
      compile .standard (":x(in("
          ++ String.ofList (Text.joinCommas (members.map fun member => Text.quoteArgument member.toList))
          ++ "))") none = .ok template
        ∧ ∀ host text : String, separator ∉ host.toList → text ≠ "" → '/' ∉ text.toList →
          template.extract (subject host ("/" ++ text))
            = if text ∈ members then .matched [("x", .string text)] else .rejected "x" "in" := by
  have hlisted : ∀ call ∈ [(⟨"in", members.map .string⟩ : RuleCall)], call.IsListed := by
    rw [List.forall_mem_singleton]
    exact isListed_of_mem_builtInSlugs (by decide) (by simp [Value.IsArgument])
  have hcompile := @compile_of_isListed .standard "x" _ ⟨'x', [], rfl, rfl, rfl⟩ hlisted
  rw [resolveRules_in "x" (by simpa using hne)] at hcompile
  rw [← text_quotedMembers hne]
  refine ⟨_, hcompile, ?_⟩
  intro host text hhost htext hslash
  rw [extract_ofVariable hcompile hhost htext hslash]
  by_cases hmem : text ∈ members
  · simp [Rule.passes_oneOf_string, hmem, valueType, Rule.valueType?, Value.coerce]
  · simp [Rule.passes_oneOf_string, hmem, Rule.slug]

/-- A member that looks like a number is a text, and quotes, backslashes and commas are kept. -/
theorem extract_quotedMembers_awkward : ∃ template,
    compile .standard ":x(in(\"012\",\"a\\\"b\\\\\",\")),\"))" none = .ok template
      ∧ template.extract (subject "h" "/a\"b\\") = .matched [("x", .string "a\"b\\")]
      ∧ template.extract (subject "h" "/012") = .matched [("x", .string "012")]
      ∧ template.extract (subject "h" "/12") = .rejected "x" "in" := by
  obtain ⟨template, hcompile, hextract⟩ := @extract_quotedMembers ["012", "a\"b\\", ")),"] (by decide)
  refine ⟨template, hcompile, ?_, ?_, ?_⟩
  · exact hextract "h" "a\"b\\" (by decide) (by decide) (by decide)
  · exact hextract "h" "012" (by decide) (by decide) (by decide)
  · exact hextract "h" "12" (by decide) (by decide) (by decide)

end Template

end UriRouting
