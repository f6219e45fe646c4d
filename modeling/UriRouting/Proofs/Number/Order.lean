import UriRouting.Proofs.Number.Rounding
/-!
# The order of numbers

Numbers are compared by their words. A greater magnitude stands for a greater value: it has a greater
exponent, or the same one and a greater significand. So finite numbers are ordered as their values are,
whatever their signs, and the two zeros are equal.

* `value_lt_value` compares absolute values, and `place_lt_place_iff` values with their signs;
* `below_iff` and `atMost_iff` are the main statements.
-/

namespace UriRouting.Binary64

variable {x y : Binary64}

/-! ## Absolute values -/

theorem value_nonneg (x : Binary64) : 0 ≤ x.value := by
  rw [value]
  positivity

/-- A number of a greater exponent than the least one has all its digits. -/
theorem two_pow_le_significand (h : -1074 < x.exponent) : 2 ^ 52 ≤ x.significand := by
  unfold exponent at h
  unfold significand
  split at h
  · omega
  · rw [if_neg ‹_›]
    omega

theorem exponent_le_exponent (h : x.magnitude ≤ y.magnitude) : x.exponent ≤ y.exponent := by
  unfold exponent
  split <;> split <;> omega

/-- A greater magnitude stands for a greater value. -/
theorem value_lt_value (h : x.magnitude < y.magnitude) : x.value < y.value := by
  rcases (exponent_le_exponent h.le).eq_or_lt with hexp | hexp
  · have hsig : x.significand < y.significand := by
      have hx := magnitude_eq x
      have hy := magnitude_eq y
      rw [hexp] at hx
      omega
    rw [value, value, hexp]
    gcongr
  · have hleast : -1074 ≤ x.exponent := by
      unfold exponent
      split <;> omega
    have hx : (x.significand : ℚ) < 2 ^ (53 : Int) := by exact_mod_cast significand_lt x
    have hy : (2 : ℚ) ^ (52 : Int) ≤ y.significand := by
      exact_mod_cast two_pow_le_significand (hleast.trans_lt hexp)
    calc x.value
      _ < 2 ^ (53 : Int) * 2 ^ x.exponent := by
        rw [value]
        gcongr
      _ = 2 ^ (52 : Int) * 2 ^ (x.exponent + 1) := by
        rw [← zpow_add₀ two_ne_zero, ← zpow_add₀ two_ne_zero]
        congr 1
        ring
      _ ≤ 2 ^ (52 : Int) * 2 ^ y.exponent := by
        gcongr
        · exact one_le_two
        · omega
      _ ≤ y.value := by
        rw [value]
        gcongr

theorem value_eq_value (h : x.magnitude = y.magnitude) : x.value = y.value := by
  simp only [value, significand, exponent, h]

/-! ## Values with their signs -/

/-- The value of a finite number, with its sign. -/
def signedValue (x : Binary64) : ℚ :=
  if x.isNegative then -x.value else x.value

theorem value_eq_zero (h : x.magnitude = 0) : x.value = 0 := by
  simp [value, significand, h]

theorem value_pos (h : 0 < x.magnitude) : 0 < x.value := by
  have hsig := significand_ne_zero h.ne'
  rw [value]
  positivity

theorem signedValue_eq_signedValue (h : x.place = y.place) : x.signedValue = y.signedValue := by
  simp only [place] at h
  simp only [signedValue]
  -- numbers of different signs share a place only if both are zero
  cases hx : x.isNegative <;> cases hy : y.isNegative <;> simp only [hx, hy] at h ⊢
  · rw [value_eq_value (by simpa using h)]
  · have hzero : x.magnitude = 0 ∧ y.magnitude = 0 := by simp at h; omega
    simp [value_eq_zero hzero.1, value_eq_zero hzero.2]
  · have hzero : x.magnitude = 0 ∧ y.magnitude = 0 := by simp at h; omega
    simp [value_eq_zero hzero.1, value_eq_zero hzero.2]
  · rw [value_eq_value (by simpa using h)]

theorem signedValue_lt_signedValue (h : x.place < y.place) : x.signedValue < y.signedValue := by
  have hx := value_nonneg x
  have hy := value_nonneg y
  simp only [place] at h
  simp only [signedValue]
  cases hxn : x.isNegative <;> cases hyn : y.isNegative <;>
    simp only [hxn, hyn, if_true, if_false, Bool.false_eq_true] at h ⊢
  · exact value_lt_value (by omega)
  · omega
  · rcases Nat.eq_zero_or_pos x.magnitude with hzero | hpos
    · rw [value_eq_zero hzero, neg_zero]
      exact value_pos (by omega)
    · exact (neg_neg_of_pos (value_pos hpos)).trans_le hy
  · exact neg_lt_neg (value_lt_value (by omega))

/-- Places are ordered like the values at them. -/
theorem place_lt_place_iff : x.place < y.place ↔ x.signedValue < y.signedValue := by
  constructor
  · exact signedValue_lt_signedValue
  · intro h
    by_contra hnot
    rcases (not_lt.1 hnot).eq_or_lt with heq | hlt
    · exact h.ne (signedValue_eq_signedValue heq.symm)
    · exact absurd h (signedValue_lt_signedValue hlt).not_gt

theorem place_le_place_iff : x.place ≤ y.place ↔ x.signedValue ≤ y.signedValue := by
  rw [← not_lt, ← not_lt, place_lt_place_iff]

/-! ## Comparisons -/

theorem isNaN_of_isFinite (h : x.isFinite = true) : x.isNaN = false := by
  simp only [isNaN, isFinite, decide_eq_true_eq, decide_eq_false_iff_not] at h ⊢
  omega

/-- A finite number is below another if and only if its value is. -/
theorem below_iff (hx : x.isFinite = true) (hy : y.isFinite = true) :
    x.below y = true ↔ x.signedValue < y.signedValue := by
  simp [below, isNaN_of_isFinite hx, isNaN_of_isFinite hy, place_lt_place_iff]

/-- A finite number is at most another if and only if its value is. -/
theorem atMost_iff (hx : x.isFinite = true) (hy : y.isFinite = true) :
    x.atMost y = true ↔ x.signedValue ≤ y.signedValue := by
  simp [atMost, isNaN_of_isFinite hx, isNaN_of_isFinite hy, place_le_place_iff]

end UriRouting.Binary64
