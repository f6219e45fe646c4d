import UriRouting.Rule
import UriRouting.Proofs.Number.RoundedInteger
/-!
# Literals that are numbers

A literal in an argument list is an integer if the rule for integers takes its text, and a number if the
rule for numbers does. Only a plus in front makes a difference: an integer may have one, and any other number
with a plus is a text as a literal, although the rule takes it. Whatever a literal is, its text is the one
that the literal stands for.

* `looksNumeric_iff` says which finite numbers pass for one as a literal;
* `Literal` says what a literal may be, and `literal_ofLiteral` that it is that;
* `ofLiteral_number_iff` is the main statement.
-/

namespace UriRouting

open UriRouting.Number

namespace Binary64

/-! ## Finite numbers -/

/-- A decimal starts with a digit or a point. -/
theorem exists_cons_of_readDecimal {cs : List Char} {decimal : Nat × Int}
    (h : readDecimal cs = some decimal) : ∃ c more, cs = c :: more ∧ (c.isDigit || c == '.') = true := by
  cases cs with
  | nil => cases h
  | cons c more =>
    refine ⟨c, more, rfl, ?_⟩
    by_contra hc
    simp only [Bool.or_eq_true, beq_iff_eq, not_or, Bool.not_eq_true] at hc
    simp [readDecimal, hc] at h

/-- What reads as a finite number is a decimal behind its sign. -/
theorem exists_readDecimal_of_isFinite {cs : List Char} {x : Binary64} (h : ofText? cs = some x)
    (hfinite : x.isFinite = true) : ∃ decimal, readDecimal (splitSign cs).2 = some decimal := by
  have hinfinite : ∀ negative, (infinity negative).isFinite ≠ true := by decide
  have hnone : ∀ negative, (notANumber negative).isFinite ≠ true := by decide
  cases hread : readDecimal (splitSign cs).2 with
  | some decimal => exact ⟨decimal, rfl⟩
  | none =>
    simp only [ofText?, hread] at h
    split_ifs at h <;> cases h
    · exact absurd hfinite (hinfinite _)
    · exact absurd hfinite (hnone _)

theorem equals_self {x : Binary64} (h : x.isNaN = false) : x.equals x = true := by
  simp [equals, h]

end Binary64

namespace Value

/-- A finite number passes for one as a literal unless it has a plus. -/
theorem looksNumeric_iff {cs : List Char} {x : Binary64} (h : Binary64.ofText? cs = some x)
    (hfinite : x.isFinite = true) : looksNumeric cs = true ↔ cs.head? ≠ some '+' := by
  obtain ⟨decimal, hread⟩ := Binary64.exists_readDecimal_of_isFinite h hfinite
  obtain ⟨c, more, hbody, hc⟩ := Binary64.exists_cons_of_readDecimal hread
  unfold splitSign at hbody
  -- both readers take a minus off, but only one of them a plus
  split at hbody
  · cases hbody
    simpa [looksNumeric] using hc
  · simp [looksNumeric]
  · rename_i hminus hplus
    subst hbody
    have hne : c ≠ '+' := fun hplain => hplus more (hplain ▸ rfl)
    have hlooks : looksNumeric (c :: more) = true := by
      unfold looksNumeric
      split
      · rename_i heq
        exact absurd heq (hminus _)
      · exact hc
    simp [hlooks, hne]

/-! ## Literals -/

/-- What a literal may be. -/
inductive Literal (text : String) : Value → Prop where
  /-- An integer. -/
  | int {i : Int64} (h : readInteger text.toList = some i) : Literal text (.int i)
  /-- A finite number, without a plus. -/
  | float {x : Binary64} (hint : readInteger text.toList = none) (h : Binary64.ofText? text.toList = some x)
      (hfinite : x.isFinite = true) (hplus : text.toList.head? ≠ some '+') : Literal text (.float x)
  /-- A truth value, by its name. -/
  | bool (b : Bool) (hname : text = (Value.bool b).text) : Literal text (.bool b)
  /-- Anything else is a text. -/
  | string (hint : readInteger text.toList = none)
      (hplus : ∀ x, Binary64.ofText? text.toList = some x → x.isFinite = true →
        text.toList.head? = some '+') : Literal text (.string text)

theorem literal_ofLiteral (text : String) : Literal text (ofLiteral text) := by
  cases hint : readInteger text.toList with
  | some i =>
    rw [ofLiteral, hint]
    exact .int hint
  | none =>
    cases hfloat : (Binary64.ofText? text.toList).filter fun x => looksNumeric text.toList && x.isFinite with
    | some x =>
      obtain ⟨hread, hnumber⟩ := Option.filter_eq_some_iff.1 hfloat
      obtain ⟨hlooks, hfinite⟩ := (Bool.and_eq_true _ _).mp hnumber
      have hvalue : ofLiteral text = .float x := by simp [ofLiteral, hint, hfloat]
      rw [hvalue]
      exact .float hint hread hfinite ((looksNumeric_iff hread hfinite).1 hlooks)
    | none =>
      simp only [ofLiteral, hint, hfloat]
      split_ifs with htrue hfalse
      · exact .bool true (beq_iff_eq.1 htrue)
      · exact .bool false (beq_iff_eq.1 hfalse)
      · refine .string hint fun x hread hfinite => ?_
        by_contra hplus
        have hlooks := (looksNumeric_iff hread hfinite).2 hplus
        simp [hread, hlooks, hfinite] at hfloat

theorem Literal.matchesText {text : String} {value : Value} (h : Literal text value) :
    value.matchesText text = true := by
  cases h with
  | int h => simp [Value.matchesText, h]
  | float _ h hfinite _ =>
    simp [Value.matchesText, h, Binary64.equals_self (Binary64.isNaN_of_isFinite hfinite)]
  | bool b hname => simp [Value.matchesText, hname, Value.text]
  | string => simp [Value.matchesText]

/-- A literal is an integer if and only if its text reads as one. -/
theorem Literal.int_iff {text : String} {value : Value} (h : Literal text value) :
    (∃ i, value = .int i) ↔ ∃ i, readInteger text.toList = some i := by
  cases h with
  | @int i h => exact iff_of_true ⟨i, rfl⟩ ⟨i, h⟩
  | float hint => simp [hint]
  | bool b hname =>
    have hread : readInteger text.toList = none := by
      subst hname
      cases b <;> decide
    simp [hread]
  | string hint => simp [hint]

/-- A literal is a number if and only if its text reads as a finite one and has no plus, or as an integer. -/
theorem Literal.number_iff {text : String} {value : Value} (h : Literal text value) :
    ((∃ i, value = .int i) ∨ ∃ x, value = .float x) ↔
      (∃ x, Binary64.ofText? text.toList = some x ∧ x.isFinite = true)
        ∧ (text.toList.head? = some '+' → ∃ i, readInteger text.toList = some i) := by
  cases h with
  | @int i h =>
    obtain ⟨x, hread, hfinite, -⟩ := Binary64.exists_ofText?_of_readInteger h
    exact iff_of_true (.inl ⟨i, rfl⟩) ⟨⟨x, hread, hfinite⟩, fun _ => ⟨i, h⟩⟩
  | @float x _ h hfinite hplus =>
    exact iff_of_true (.inr ⟨x, rfl⟩) ⟨⟨x, h, hfinite⟩, fun hhead => absurd hhead hplus⟩
  | bool b hname =>
    have hread : Binary64.ofText? text.toList = none := by
      subst hname
      cases b <;> decide
    simp [hread]
  | string hint hplus =>
    refine iff_of_false (by simp) ?_
    rintro ⟨⟨x, hread, hfinite⟩, hinteger⟩
    obtain ⟨i, hread'⟩ := hinteger (hplus x hread hfinite)
    simp [hint] at hread'

end Value

namespace Rule

theorem passes_int_iff {text : String} :
    Rule.int.passes text = true ↔ ∃ i, readInteger text.toList = some i :=
  Option.isSome_iff_exists

theorem passes_float_iff {text : String} :
    Rule.float.passes text = true ↔ ∃ x, Binary64.ofText? text.toList = some x ∧ x.isFinite = true := by
  simp only [passes, finiteNumber?, Option.isSome_iff_exists, Option.filter_eq_some_iff]

end Rule

namespace Value

/-- A literal is a number if and only if the rule for numbers takes its text and there is no plus in front of
it, but for an integer. It is an integer if and only if the rule for integers takes its text. And the text of
a literal always equals the literal. -/
theorem ofLiteral_number_iff (text : String) :
    (((∃ i, ofLiteral text = .int i) ∨ ∃ x, ofLiteral text = .float x) ↔
        Rule.float.passes text = true
          ∧ (text.toList.head? = some '+' → Rule.int.passes text = true))
      ∧ ((∃ i, ofLiteral text = .int i) ↔ Rule.int.passes text = true)
      ∧ (ofLiteral text).matchesText text = true := by
  have hliteral := literal_ofLiteral text
  rw [Rule.passes_float_iff, Rule.passes_int_iff]
  exact ⟨hliteral.number_iff, hliteral.int_iff, hliteral.matchesText⟩

/-- A plus in front of a fraction makes a text of what the rule for numbers takes. -/
theorem ofLiteral_plus :
    Rule.float.passes "+1.5" = true
      ∧ ¬ ((∃ i, ofLiteral "+1.5" = .int i) ∨ ∃ x, ofLiteral "+1.5" = .float x) := by
  have hvalue : ofLiteral "+1.5" = .string "+1.5" := by decide
  rw [hvalue]
  exact ⟨by decide, by simp⟩

end Value

end UriRouting
