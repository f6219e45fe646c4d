import Mathlib
import UriRouting.Number.Decimal
/-!
# Rounding fractions

The number nearest to a fraction depends on the value of the fraction alone, and a finite number is
nearest to itself.

* `floorLog2_eq_log` says that the power of two below a fraction is its logarithm, rounded down;
* `nearestMagnitude_congr` and `nearestMagnitude_eq_magnitude` are the two main statements;
* `ofMagnitude_magnitude` puts a number together from its sign and its magnitude.
-/

namespace UriRouting.Binary64

/-! ## Sign and magnitude -/

theorem magnitude_ofMagnitude {negative : Bool} {magnitude : Nat}
    (h : magnitude < 0x8000000000000000) : (ofMagnitude negative magnitude).magnitude = magnitude := by
  cases negative <;> simp [ofMagnitude, Binary64.magnitude] <;> omega

/-- A number is its sign and its magnitude. -/
theorem ofMagnitude_magnitude (x : Binary64) : ofMagnitude x.isNegative x.magnitude = x := by
  obtain ⟨bits⟩ := x
  have hbits := bits.toNat_lt
  rw [ofMagnitude, Binary64.mk.injEq, ← UInt64.toNat_inj, UInt64.toNat_ofNat']
  simp only [isNegative, magnitude, decide_eq_true_eq]
  split <;> omega

/-! ## The power of two below a fraction -/

section

variable {num den : Nat}

/-- Dividing a fraction by a power divides its value. -/
theorem divPow_value {base : Nat} (hbase : 0 < base) (q : Int) :
    ((divPow num den base q).1 : ℚ) / (divPow num den base q).2 = (num / den : ℚ) / (base : ℚ) ^ q := by
  have hbase' : (base : ℚ) ≠ 0 := by exact_mod_cast hbase.ne'
  unfold divPow
  split
  · rename_i hq
    obtain ⟨n, rfl⟩ := Int.eq_ofNat_of_zero_le hq
    simp [div_div]
  · rename_i hq
    obtain ⟨n, hn⟩ := Int.eq_ofNat_of_zero_le (by omega : 0 ≤ -q)
    obtain rfl : q = -n := by omega
    simp [div_mul_eq_mul_div]

theorem divPow_den_pos {base : Nat} (hbase : 0 < base) (hden : 0 < den) (q : Int) :
    0 < (divPow num den base q).2 := by
  unfold divPow
  split
  · exact Nat.mul_pos hden (Nat.pow_pos hbase)
  · exact hden

/-- The logarithms of its parts give the power of two below a fraction, up to one. -/
theorem pow_log2_sub_bounds (hnum : num ≠ 0) (hden : den ≠ 0) :
    (2 : ℚ) ^ ((num.log2 : Int) - den.log2 - 1) ≤ num / den
      ∧ (num / den : ℚ) < 2 ^ ((num.log2 : Int) - den.log2 + 1) := by
  have hden' : (0 : ℚ) < den := by exact_mod_cast Nat.pos_of_ne_zero hden
  have hnumLow : (2 : ℚ) ^ (num.log2 : Int) ≤ num := by exact_mod_cast Nat.log2_self_le hnum
  have hnumHigh : (num : ℚ) < 2 ^ ((num.log2 : Int) + 1) := by exact_mod_cast @Nat.lt_log2_self num
  have hdenLow : (2 : ℚ) ^ (den.log2 : Int) ≤ den := by exact_mod_cast Nat.log2_self_le hden
  have hdenHigh : (den : ℚ) < 2 ^ ((den.log2 : Int) + 1) := by exact_mod_cast @Nat.lt_log2_self den
  rw [le_div_iff₀ hden', div_lt_iff₀ hden']
  constructor
  · calc (2 : ℚ) ^ ((num.log2 : Int) - den.log2 - 1) * den
      _ ≤ 2 ^ ((num.log2 : Int) - den.log2 - 1) * 2 ^ ((den.log2 : Int) + 1) := by gcongr
      _ = 2 ^ (num.log2 : Int) := by
        rw [← zpow_add₀ two_ne_zero]
        congr 1
        ring
      _ ≤ num := hnumLow
  · calc (num : ℚ)
      _ < 2 ^ ((num.log2 : Int) + 1) := hnumHigh
      _ = 2 ^ ((num.log2 : Int) - den.log2 + 1) * 2 ^ (den.log2 : Int) := by
        rw [← zpow_add₀ two_ne_zero]
        congr 1
        ring
      _ ≤ 2 ^ ((num.log2 : Int) - den.log2 + 1) * den := by gcongr

/-- The power of two below a fraction is given by the logarithm of its value. -/
theorem floorLog2_eq_log (hnum : num ≠ 0) (hden : den ≠ 0) :
    floorLog2 num den = Int.log 2 (num / den : ℚ) := by
  have hvalue : (0 : ℚ) < num / den := by positivity
  obtain ⟨hlow, hhigh⟩ := pow_log2_sub_bounds hnum hden
  generalize hguess : (num.log2 : Int) - den.log2 = guess at hlow hhigh
  have hle := (Int.zpow_le_iff_le_log Nat.one_lt_two hvalue).1 (by rwa [Nat.cast_ofNat])
  have hlt := (Int.lt_zpow_iff_log_lt Nat.one_lt_two hvalue).1 (by rwa [Nat.cast_ofNat])
  -- the guess is right if the fraction is at least the power of the guess
  have hright : (divPow num den 2 guess).2 ≤ (divPow num den 2 guess).1
      ↔ guess ≤ Int.log 2 (num / den : ℚ) := by
    have hpos : (0 : ℚ) < (divPow num den 2 guess).2 := by
      exact_mod_cast divPow_den_pos Nat.two_pos (Nat.pos_of_ne_zero hden) guess
    rw [← Int.zpow_le_iff_le_log Nat.one_lt_two hvalue, ← @Nat.cast_le ℚ, ← one_le_div₀ hpos,
      divPow_value Nat.two_pos, one_le_div₀ (by positivity)]
  simp only [floorLog2, hguess]
  split <;> omega

end

/-! ## Halves -/

/-- Rounding an integer leaves it as it is. -/
theorem roundHalfEven_mul {den : Nat} (hden : 0 < den) (n : Nat) :
    roundHalfEven (n * den) den = n := by
  simp [roundHalfEven, hden]

theorem roundHalfEven_mul_mul {factor : Nat} (hfactor : 0 < factor) (num den : Nat) :
    roundHalfEven (num * factor) (den * factor) = roundHalfEven num den := by
  have hless : ∀ a b : Nat, a * factor < b * factor ↔ a < b :=
    fun a b => Nat.mul_lt_mul_right hfactor
  simp only [roundHalfEven, Nat.mul_div_mul_right _ _ hfactor, Nat.mul_mod_mul_right, ← Nat.mul_assoc,
    hless]

/-- Rounding depends on the value of a fraction only. -/
theorem roundHalfEven_congr {num den num' den' : Nat} (hden : 0 < den) (hden' : 0 < den')
    (h : (num / den : ℚ) = num' / den') : roundHalfEven num den = roundHalfEven num' den' := by
  have hcross : num * den' = num' * den := by
    rw [div_eq_div_iff (by positivity) (by positivity)] at h
    exact_mod_cast h
  calc roundHalfEven num den
    _ = roundHalfEven (num * den') (den * den') := (roundHalfEven_mul_mul hden' num den).symm
    _ = roundHalfEven (num' * den) (den' * den) := by rw [hcross, Nat.mul_comm den]
    _ = roundHalfEven num' den' := roundHalfEven_mul_mul hden num' den'

/-! ## The nearest number -/

theorem nearestMagnitude_le (num den : Nat) : nearestMagnitude num den ≤ infiniteMagnitude := by
  unfold nearestMagnitude
  split
  · exact Nat.zero_le _
  · exact Nat.min_le_left _ _

/-- The nearest number depends on the value of a fraction only. -/
theorem nearestMagnitude_congr {num den num' den' : Nat} (hden : 0 < den) (hden' : 0 < den')
    (h : (num / den : ℚ) = num' / den') : nearestMagnitude num den = nearestMagnitude num' den' := by
  have hzero : num = 0 ↔ num' = 0 := by
    have hiff : (num / den : ℚ) = 0 ↔ (num' / den' : ℚ) = 0 := by rw [h]
    simpa [hden.ne', hden'.ne'] using hiff
  by_cases hnum : num = 0
  · simp [nearestMagnitude, hnum, hzero.1 hnum]
  · have hnum' : ¬ num' = 0 := fun heq => hnum (hzero.2 heq)
    have hlog : floorLog2 num den = floorLog2 num' den' := by
      rw [floorLog2_eq_log hnum hden.ne', floorLog2_eq_log hnum' hden'.ne', h]
    have hround : ∀ q, roundHalfEven (divPow num den 2 q).1 (divPow num den 2 q).2
        = roundHalfEven (divPow num' den' 2 q).1 (divPow num' den' 2 q).2 := by
      intro q
      apply roundHalfEven_congr (divPow_den_pos Nat.two_pos hden q)
        (divPow_den_pos Nat.two_pos hden' q)
      rw [divPow_value Nat.two_pos, divPow_value Nat.two_pos, h]
    simp only [nearestMagnitude, hnum, hnum', hlog, hround, if_false]

/-! ## Finite numbers -/

/-- The absolute value of a finite number. -/
def value (x : Binary64) : ℚ :=
  x.significand * (2 : ℚ) ^ x.exponent

section

variable {x : Binary64}

/-- The significand and the exponent of a finite number give back its magnitude. -/
theorem magnitude_eq (x : Binary64) :
    ((x.exponent + 1074).toNat * 0x10000000000000 + x.significand : Nat) = x.magnitude := by
  simp only [significand, exponent]
  split <;> omega

theorem significand_ne_zero (h : x.magnitude ≠ 0) : x.significand ≠ 0 := by
  simp only [significand]
  split <;> omega

theorem significand_lt (x : Binary64) : x.significand < 2 ^ 53 := by
  simp only [significand]
  split <;> omega

/-- The exponents that finite numbers have. -/
theorem exponent_bounds (h : x.isFinite = true) : -1074 ≤ x.exponent ∧ x.exponent ≤ 971 := by
  rw [isFinite, decide_eq_true_eq, infiniteMagnitude] at h
  unfold exponent
  split <;> omega

/-- The exponent goes with a significand of 53 digits, or it is the least one. -/
theorem exponent_eq_max (h : x.magnitude ≠ 0) :
    max ((x.significand.log2 : Int) + x.exponent - 52) (-1074) = x.exponent := by
  have hne := significand_ne_zero h
  by_cases hsmall : x.magnitude < 0x10000000000000
  · have hlog : x.significand.log2 < 52 := by
      rw [Nat.log2_lt hne, significand, if_pos hsmall]
      omega
    rw [exponent, if_pos hsmall]
    omega
  · have hlog : x.significand.log2 = 52 := by
      rw [Nat.log2_eq_iff hne, significand, if_neg hsmall]
      omega
    rw [exponent, if_neg hsmall, hlog]
    omega

/-- A finite number is the nearest one to its own value. -/
theorem nearestMagnitude_eq_magnitude (h : x.isFinite = true) (hne : x.magnitude ≠ 0)
    {num den : Nat} (hden : 0 < den) (hvalue : (num / den : ℚ) = x.value) :
    nearestMagnitude num den = x.magnitude := by
  have hsig := significand_ne_zero hne
  have hsig' : (0 : ℚ) < x.significand := by positivity
  have hpos : (0 : ℚ) < x.value := mul_pos hsig' (by positivity)
  have hnum : num ≠ 0 := by
    rintro rfl
    rw [← hvalue, Nat.cast_zero, zero_div] at hpos
    exact lt_irrefl _ hpos
  have hlog : floorLog2 num den = x.significand.log2 + x.exponent := by
    rw [floorLog2_eq_log hnum hden.ne', hvalue]
    have hlow : (2 : ℚ) ^ (x.significand.log2 : Int) ≤ x.significand := by
      exact_mod_cast Nat.log2_self_le hsig
    have hhigh : (x.significand : ℚ) < 2 ^ ((x.significand.log2 : Int) + 1) := by
      exact_mod_cast @Nat.lt_log2_self x.significand
    apply le_antisymm
    · rw [← Int.lt_add_one_iff, ← Int.lt_zpow_iff_log_lt Nat.one_lt_two hpos]
      calc x.value
        _ < 2 ^ ((x.significand.log2 : Int) + 1) * 2 ^ x.exponent := by
          rw [value]
          gcongr
        _ = ((2 : ℕ) : ℚ) ^ ((x.significand.log2 : Int) + x.exponent + 1) := by
          rw [← zpow_add₀ two_ne_zero, Nat.cast_ofNat]
          congr 1
          ring
    · rw [← Int.zpow_le_iff_le_log Nat.one_lt_two hpos]
      calc ((2 : ℕ) : ℚ) ^ ((x.significand.log2 : Int) + x.exponent)
        _ = 2 ^ (x.significand.log2 : Int) * 2 ^ x.exponent := by
          rw [← zpow_add₀ two_ne_zero, Nat.cast_ofNat]
        _ ≤ x.value := by
          rw [value]
          gcongr
  have hround : roundHalfEven (divPow num den 2 x.exponent).1 (divPow num den 2 x.exponent).2
      = x.significand := by
    rw [← roundHalfEven_mul Nat.one_pos x.significand]
    apply roundHalfEven_congr (divPow_den_pos Nat.two_pos hden _) Nat.one_pos
    rw [divPow_value Nat.two_pos, hvalue, value, Nat.cast_ofNat, mul_div_assoc,
      div_self (by positivity)]
    simp
  have hfinite : x.magnitude < infiniteMagnitude := by simpa [isFinite] using h
  simp only [nearestMagnitude, hnum, if_false, hlog, exponent_eq_max hne, hround, magnitude_eq]
  exact Nat.min_eq_right hfinite.le

end

end UriRouting.Binary64
