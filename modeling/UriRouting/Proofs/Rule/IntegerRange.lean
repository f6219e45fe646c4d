import UriRouting.Proofs.Number.RoundedInteger
import UriRouting.Proofs.Template.OneVariable
/-!
# Ranges of integers

The rules with bounds compare double-precision numbers. An integer is rounded to such a number, and so are
the bounds, so a range of integers is a range of rounded integers. Rounding keeps the order of integers,
though two may become one. So a range with its bounds holds all integers that it should, and a range
without its bounds holds no others; and as long as either the integer or both bounds have no more than 53
binary digits, a range is what it says.

* `Number.InRange` is the range, and `Number.inRange_rounded_iff` says where rounding does not change it;
* `betweenText` and `boundsText` are the two ways to call for a range, with one rule or with two;
* `extract_integerRange` says what a path makes of a request that is an integer in a range.
-/

namespace UriRouting

open UriRouting.Number UriRouting.Tree UriRouting.Template

namespace Number

/-- Whether an integer is between two bounds, which belong to the range or do not. -/
def InRange (inclusive : Bool) (lower upper i : Int) : Prop :=
  if inclusive then lower ≤ i ∧ i ≤ upper else lower < i ∧ i < upper

instance (inclusive : Bool) (lower upper i : Int) : Decidable (InRange inclusive lower upper i) :=
  inferInstanceAs (Decidable (if inclusive then lower ≤ i ∧ i ≤ upper else lower < i ∧ i < upper))

section

variable {inclusive : Bool} {lower upper i : Int}

/-- Rounding drops no integer from a range with its bounds. -/
theorem inRange_rounded (h : InRange true lower upper i) :
    InRange true (rounded lower) (rounded upper) (rounded i) :=
  ⟨rounded_le_rounded h.1, rounded_le_rounded h.2⟩

/-- Rounding adds no integer to a range without its bounds. -/
theorem inRange_of_rounded (h : InRange false (rounded lower) (rounded upper) (rounded i)) :
    InRange false lower upper i :=
  ⟨lt_of_rounded_lt h.1, lt_of_rounded_lt h.2⟩

/-- Rounding does not change a range as long as the numbers have no more than 53 binary digits. -/
theorem inRange_rounded_iff
    (h : i.natAbs < 2 ^ 53 ∨ lower.natAbs < 2 ^ 53 ∧ upper.natAbs < 2 ^ 53) :
    InRange inclusive (rounded lower) (rounded upper) (rounded i) ↔ InRange inclusive lower upper i := by
  have hlower : i.natAbs < 2 ^ 53 ∨ lower.natAbs < 2 ^ 53 := h.imp_right And.left
  have hupper : i.natAbs < 2 ^ 53 ∨ upper.natAbs < 2 ^ 53 := h.imp_right And.right
  cases inclusive with
  | true =>
    have hbelow := rounded_lt_rounded_iff hlower
    have habove := rounded_lt_rounded_iff hupper.symm
    simp only [InRange, if_true]
    omega
  | false =>
    have hbelow := rounded_lt_rounded_iff hlower.symm
    have habove := rounded_lt_rounded_iff hupper
    simp only [InRange, Bool.false_eq_true, if_false]
    omega

end

end Number

namespace Number

/-- A text that reads as an integer is one segment of a path. -/
theorem ne_nil_of_readInteger {cs : List Char} {i : Int64} (h : readInteger cs = some i) :
    cs ≠ [] ∧ '/' ∉ cs := by
  simp only [readInteger] at h
  split at h
  · rename_i hdigits
    rw [isDigits, Bool.and_eq_true, List.all_eq_true] at hdigits
    obtain ⟨hne, hall⟩ := hdigits
    have hslash : '/' ∉ (splitSign cs).2 := fun hmem => absurd (hall _ hmem) (by decide)
    simp only [splitSign] at hne hslash
    split at hne <;> simp_all
  · cases h

end Number

namespace Rule

/-- Rules that are satisfied by the numbers between two bounds. -/
def Bounds (inclusive : Bool) (lower upper : Binary64) (rules : List Rule) : Prop :=
  ∀ text x, finiteNumber? text = some x →
    rules.all (·.passes text) = (ordered inclusive lower x && ordered inclusive x upper)

theorem bounds_between (inclusive : Bool) (lower upper : Binary64) :
    Bounds inclusive lower upper [.between lower upper inclusive] := by
  intro text x hx
  simp [passes, hx]

theorem bounds_min_max (inclusive : Bool) (lower upper : Binary64) :
    Bounds inclusive lower upper [.min lower inclusive, .max upper inclusive] := by
  intro text x hx
  simp [passes, hx]

/-- Numbers that are integers are compared as integers. -/
theorem ordered_iff {x y : Binary64} (hx : x.isFinite = true) (hy : y.isFinite = true) {i j : Int}
    (hi : x.signedValue = i) (hj : y.signedValue = j) (inclusive : Bool) :
    ordered inclusive x y = true ↔ if inclusive then i ≤ j else i < j := by
  cases inclusive with
  | true => simp [ordered, Binary64.atMost_iff hx hy, hi, hj]
  | false => simp [ordered, Binary64.below_iff hx hy, hi, hj]

/-- A text that reads as an integer satisfies rules with integer bounds if the integers are in range when
they are rounded. -/
theorem Bounds.all_passes_iff {inclusive : Bool} {a b n : Int64} {rules : List Rule}
    (h : Bounds inclusive (.ofInt a.toInt) (.ofInt b.toInt) rules) {text : String}
    (hn : readInteger text.toList = some n) :
    rules.all (·.passes text) = true
      ↔ InRange inclusive (rounded a.toInt) (rounded b.toInt) (rounded n.toInt) := by
  obtain ⟨x, hx, hfinite, hvalue⟩ := Binary64.exists_ofText?_of_readInteger hn
  obtain ⟨hfiniteA, hvalueA⟩ := Binary64.signedValue_ofInt a
  obtain ⟨hfiniteB, hvalueB⟩ := Binary64.signedValue_ofInt b
  have hnumber : finiteNumber? text = some x := by simp [finiteNumber?, hx, hfinite]
  rw [h text x hnumber, Bool.and_eq_true, ordered_iff hfiniteA hfinite hvalueA hvalue,
    ordered_iff hfinite hfiniteB hvalue hvalueB]
  cases inclusive <;> simp [InRange]

end Rule

namespace Template

/-! ## Calling for a range -/

/-- A flag behind other arguments. -/
def flagText : Option Bool → String
  | none => ""
  | some inclusive => "," ++ (Value.bool inclusive).text

/-- A range as one rule. -/
def betweenText (a b : Int64) (flag : Option Bool) : String :=
  "between(" ++ (Value.int a).text ++ "," ++ (Value.int b).text ++ flagText flag ++ ")"

/-- A range as two rules. -/
def boundsText (a b : Int64) (flag : Option Bool) : String :=
  "min(" ++ (Value.int a).text ++ flagText flag ++ "),max(" ++ (Value.int b).text ++ flagText flag ++ ")"

/-- A call with bounds and perhaps a flag. -/
def flagged (slug : String) (bounds : List Int64) (flag : Option Bool) : RuleCall :=
  ⟨slug, bounds.map .int ++ flag.toList.map .bool⟩

/-- The texts that call for a range, and what they call for. -/
inductive CallsRange (a b : Int64) (flag : Option Bool) : String → List RuleCall → Prop where
  | between : CallsRange a b flag (betweenText a b flag) [flagged "between" [a, b] flag]
  | bounds : CallsRange a b flag (boundsText a b flag) [flagged "min" [a] flag, flagged "max" [b] flag]

theorem exists_callsRange {a b : Int64} {flag : Option Bool} {rules : String}
    (h : rules ∈ [betweenText a b flag, boundsText a b flag]) :
    ∃ calls, CallsRange a b flag rules calls := by
  rw [List.mem_pair] at h
  rcases h with rfl | rfl
  · exact ⟨_, .between⟩
  · exact ⟨_, .bounds⟩

namespace CallsRange

variable {a b : Int64} {flag : Option Bool} {text : String} {calls : List RuleCall}

theorem isListed_flagged {slug : String} (h : slug ∈ Rule.builtInSlugs) (bounds : List Int64) :
    (flagged slug bounds flag).IsListed := by
  refine isListed_of_mem_builtInSlugs h ?_
  simp only [List.mem_append, List.mem_map]
  rintro value (⟨i, -, rfl⟩ | ⟨inclusive, -, rfl⟩) <;> trivial

theorem isListed (h : CallsRange a b flag text calls) :
    ∀ call ∈ ⟨"int", []⟩ :: calls, call.IsListed := by
  have hint : RuleCall.IsListed ⟨"int", []⟩ := isListed_of_mem_builtInSlugs (by decide) (by simp)
  cases h with
  | between => simpa [hint] using isListed_flagged (by decide) _
  | bounds => simpa [hint] using ⟨isListed_flagged (by decide) _, isListed_flagged (by decide) _⟩

theorem text_eq (h : CallsRange a b flag text calls) :
    (Tree.sequence [.variable "x" (⟨"int", []⟩ :: calls) none]).text = ":x(int," ++ text ++ ")" := by
  rw [← String.toList_inj]
  cases h <;> cases flag <;>
    simp [Tree.text, Tree.chars, Tree.charsOf, RuleCall.listChars, RuleCall.chars, Text.joinCommas,
      defaultChars, flagged, betweenText, boundsText, flagText, Value.argumentChars]

/-- Bounds in order do not cross when they are rounded. -/
theorem ranged_flagged (hle : a ≤ b) :
    Rule.ranged (flagged "between" [a, b] flag).arguments
      = .ok (.between (.ofInt a.toInt) (.ofInt b.toInt) (flag.getD true)) := by
  obtain ⟨hfiniteA, hvalueA⟩ := Binary64.signedValue_ofInt a
  obtain ⟨hfiniteB, hvalueB⟩ := Binary64.signedValue_ofInt b
  have hcrossed : (Binary64.ofInt b.toInt).below (.ofInt a.toInt) = false := by
    rw [← Bool.not_eq_true, Binary64.below_iff hfiniteB hfiniteA, hvalueA, hvalueB, not_lt]
    exact_mod_cast rounded_le_rounded (Int64.le_iff_toInt_le.1 hle)
  cases flag <;> simp [flagged, Rule.ranged, Rule.numberArgument, Value.toNumber?, hcrossed,
    Rule.inclusiveArgument, Value.toBool?, bind, Except.bind, pure, Except.pure]

/-- A range whose bounds are in order can be made. -/
theorem exists_resolveRules (h : CallsRange a b flag text calls) (hle : a ≤ b) :
    ∃ rules, resolveRules .standard "x" (⟨"int", []⟩ :: calls) = .ok (.int :: rules)
      ∧ Rule.Bounds (flag.getD true) (.ofInt a.toInt) (.ofInt b.toInt) rules := by
  cases h with
  | between =>
    refine ⟨_, ?_, Rule.bounds_between _ _ _⟩
    have hint : RuleBook.standard.resolve ⟨"int", []⟩ = .ok .int := rfl
    have hbetween : RuleBook.standard.resolve (flagged "between" [a, b] flag)
        = (Rule.ranged (flagged "between" [a, b] flag).arguments).mapError (.arguments "between") :=
      rfl
    rw [ranged_flagged hle] at hbetween
    simp [resolveRules, hint, hbetween, Except.mapError, Except.map]
  | bounds =>
    refine ⟨_, ?_, Rule.bounds_min_max _ _ _⟩
    cases flag <;> rfl

end CallsRange

/-- An integer is taken if it is in the range when it and the bounds are rounded, and else it fails a
rule. -/
theorem exists_extract_range_iff {a b : Int64} {flag : Option Bool} {rules : String}
    (hrules : rules ∈ [betweenText a b flag, boundsText a b flag]) (hle : a ≤ b) :
    ∃ template, compile .standard (":x(int," ++ rules ++ ")") none = .ok template
      ∧ ∀ (host text : String) (n : Int64), separator ∉ host.toList → readInteger text.toList = some n →
        ((template.extract (subject host ("/" ++ text)) = .matched [("x", .int n)]
            ↔ InRange (flag.getD true) (rounded a.toInt) (rounded b.toInt) (rounded n.toInt))
          ∧ (template.extract (subject host ("/" ++ text)) = .matched [("x", .int n)]
            ∨ ∃ slug, template.extract (subject host ("/" ++ text)) = .rejected "x" slug)) := by
  obtain ⟨calls, hcalls⟩ := exists_callsRange hrules
  obtain ⟨made, hmade, hbounds⟩ := hcalls.exists_resolveRules hle
  have hcompile := @compile_of_isListed .standard "x" _ ⟨'x', [], rfl, rfl, rfl⟩ hcalls.isListed
  rw [hmade] at hcompile
  rw [← hcalls.text_eq]
  refine ⟨_, hcompile, ?_⟩
  intro host text n hhost hn
  obtain ⟨hne, hslash⟩ := ne_nil_of_readInteger hn
  rw [extract_ofVariable hcompile hhost (by simpa using hne) hslash]
  have hint : Rule.int.passes text = true := by simp [Rule.passes, hn]
  rw [List.find?_cons_of_neg (by simp [hint]), ← hbounds.all_passes_iff hn]
  cases hfailed : made.find? (!·.passes text) with
  | some rule =>
    have hall : ¬ made.all (·.passes text) = true := by
      intro hall
      have hpasses := List.all_eq_true.1 hall rule (List.mem_of_find?_eq_some hfailed)
      simpa [hpasses] using List.find?_some hfailed
    simp [hall]
  | none =>
    have hall : made.all (·.passes text) = true := by
      simpa using hfailed
    simp [hall, valueType, Rule.valueType?, Value.coerce, hn]

/-- A path that is one variable with a range of integers can be made if the bounds are in order. A request
for an integer gives the integer to the variable if it is in the range when it and the bounds are rounded
to 53 binary digits, and else it fails a rule. So no integer of a range with its bounds is refused, none
outside a range without its bounds is taken, and the range is as given if the integer or both bounds are
below 2⁵³. -/
theorem extract_integerRange {a b : Int64} {flag : Option Bool} {rules : String}
    (hrules : rules ∈ [betweenText a b flag, boundsText a b flag]) (hle : a ≤ b) :
    ∃ template, compile .standard (":x(int," ++ rules ++ ")") none = .ok template
      ∧ ∀ (host text : String) (n : Int64), separator ∉ host.toList → readInteger text.toList = some n →
        let answer := template.extract (subject host ("/" ++ text))
        (answer = .matched [("x", .int n)]
            ↔ InRange (flag.getD true) (rounded a.toInt) (rounded b.toInt) (rounded n.toInt))
          ∧ (answer = .matched [("x", .int n)] ∨ ∃ slug, answer = .rejected "x" slug)
          ∧ (flag.getD true = true → a ≤ n ∧ n ≤ b → answer = .matched [("x", .int n)])
          ∧ (flag.getD true = false → answer = .matched [("x", .int n)] → a < n ∧ n < b)
          ∧ (n.toInt.natAbs < 2 ^ 53 ∨ a.toInt.natAbs < 2 ^ 53 ∧ b.toInt.natAbs < 2 ^ 53 →
            (answer = .matched [("x", .int n)] ↔ InRange (flag.getD true) a.toInt b.toInt n.toInt)) := by
  obtain ⟨template, hcompile, hextract⟩ := exists_extract_range_iff hrules hle
  refine ⟨template, hcompile, ?_⟩
  intro host text n hhost hn answer
  obtain ⟨hiff, hanswer⟩ := hextract host text n hhost hn
  refine ⟨hiff, hanswer, ?_, ?_, ?_⟩
  · intro hflag hrange
    rw [Int64.le_iff_toInt_le, Int64.le_iff_toInt_le] at hrange
    rw [hiff, hflag]
    exact inRange_rounded hrange
  · intro hflag hmatched
    rw [hiff, hflag] at hmatched
    rw [Int64.lt_iff_toInt_lt, Int64.lt_iff_toInt_lt]
    exact inRange_of_rounded hmatched
  · intro hsmall
    exact hiff.trans (inRange_rounded_iff hsmall)

/-- A month with a leading zero is a month, and there is no thirteenth. -/
theorem extract_integerRange_months : ∃ template,
    compile .standard ":x(int,between(1,12))" none = .ok template
      ∧ template.extract (subject "h" "/012") = .matched [("x", .int 12)]
      ∧ template.extract (subject "h" "/13") ≠ .matched [("x", .int 13)] := by
  obtain ⟨template, hcompile, hextract⟩ :=
    @extract_integerRange 1 12 none (betweenText 1 12 none) (by simp) (by decide)
  refine ⟨template, hcompile, ?_, ?_⟩
  · exact (hextract "h" "012" 12 (by decide) (by decide)).1.2 (by decide)
  · exact mt (hextract "h" "13" 13 (by decide) (by decide)).1.1 (by decide)

/-- A range of one holds a second integer, which is rounded to the first. A range without its bounds does
not hold its least integer, which is rounded to the bound below. -/
theorem extract_beyond_precision :
    (∃ template, compile .standard ":x(int,between(9007199254740992,9007199254740992))" none = .ok template
        ∧ template.extract (subject "h" "/9007199254740993") = .matched [("x", .int 9007199254740993)]
        ∧ ¬ (9007199254740993 : Int64) ≤ 9007199254740992)
      ∧ ∃ template,
        compile .standard ":x(int,between(9007199254740992,9007199254740996,false))" none = .ok template
          ∧ template.extract (subject "h" "/9007199254740993") ≠ .matched [("x", .int 9007199254740993)]
          ∧ (9007199254740992 : Int64) < 9007199254740993
          ∧ (9007199254740993 : Int64) < 9007199254740996 := by
  constructor
  · obtain ⟨template, hcompile, hextract⟩ := @exists_extract_range_iff 9007199254740992 9007199254740992 none
      (betweenText 9007199254740992 9007199254740992 none) (by simp) (by decide)
    refine ⟨template, hcompile, ?_, by decide⟩
    exact (hextract "h" "9007199254740993" _ (by decide) (by decide)).1.2 (by decide)
  · obtain ⟨template, hcompile, hextract⟩ := @exists_extract_range_iff 9007199254740992 9007199254740996
      (some false) (betweenText 9007199254740992 9007199254740996 (some false)) (by simp) (by decide)
    refine ⟨template, hcompile, ?_, by decide, by decide⟩
    exact mt (hextract "h" "9007199254740993" 9007199254740993 (by decide) (by decide)).1.1 (by decide)

end Template

end UriRouting
