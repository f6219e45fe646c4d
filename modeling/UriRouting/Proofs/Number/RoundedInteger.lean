import UriRouting.Proofs.Number.Decimal
import UriRouting.Proofs.Number.Order
/-!
# Integers as numbers

A double-precision number has 53 binary digits, so an integer of more digits is taken as the nearest one
of 53 digits, and two integers can be taken as the same number. Rounding never turns two integers round,
and up to 2⁵³ it leaves every integer as it is.

* `Number.rounded` rounds an integer, and `Number.rounded_le_rounded`, `Number.rounded_eq_self` and
  `Number.rounded_lt_rounded_iff` say what is kept;
* `Binary64.signedValue_nearest` says that the number nearest to an integer is the rounded integer;
* `Binary64.exists_ofText?_of_readInteger` and `Binary64.signedValue_ofInt` say the same of an integer that
  is read from a text, and of one that is given.
-/

namespace UriRouting

namespace Binary64

/-- Rounding keeps the order of fractions. -/
theorem roundHalfEven_le_roundHalfEven {n m : Nat} (den : Nat) (h : n ≤ m) :
    roundHalfEven n den ≤ roundHalfEven m den := by
  have hround : ∀ num, num / den ≤ roundHalfEven num den ∧ roundHalfEven num den ≤ num / den + 1 := by
    intro num
    simp only [roundHalfEven]
    split
    · omega
    split <;> omega
  rcases (Nat.div_le_div_right h : n / den ≤ m / den).eq_or_lt with hwhole | hwhole
  · have hrest : n % den ≤ m % den := by
      have hn := Nat.div_add_mod n den
      have hm := Nat.div_add_mod m den
      rw [hwhole] at hn
      omega
    simp only [roundHalfEven, hwhole]
    split_ifs <;> omega
  · exact (hround n).2.trans (Nat.le_trans hwhole (hround m).1)

end Binary64

namespace Number

open Binary64

/-! ## Rounding integers -/

/-- What the last of 53 binary digits of a number counts. -/
def lastPlace (n : Nat) : Nat :=
  2 ^ (n.log2 - 52)

/-- A natural number rounded to 53 binary digits; a half goes to the even neighbour. -/
def roundedNat (n : Nat) : Nat :=
  roundHalfEven n (lastPlace n) * lastPlace n

/-- An integer rounded to 53 binary digits. -/
def rounded (i : Int) : Int :=
  signed (decide (i < 0)) (roundedNat i.natAbs)

/-- A number of no more than 53 digits is rounded to itself. -/
theorem roundedNat_eq_self {n : Nat} (h : n ≤ 2 ^ 53) : roundedNat n = n := by
  rcases h.eq_or_lt with rfl | hlt
  · decide +kernel
  · have hplace : lastPlace n = 1 := by
      rcases Nat.eq_zero_or_pos n with rfl | hpos
      · rfl
      · have hlog := (Nat.log2_lt hpos.ne').2 hlt
        rw [lastPlace, Nat.sub_eq_zero_of_le (by omega), Nat.pow_zero]
    rw [roundedNat, hplace, Nat.mul_one]
    simpa using roundHalfEven_mul Nat.one_pos n

/-- Rounding does not change the number of digits, or it gives the least number of one digit more. -/
theorem roundedNat_bounds {n : Nat} (h : n ≠ 0) :
    2 ^ n.log2 ≤ roundedNat n ∧ roundedNat n ≤ 2 ^ (n.log2 + 1) := by
  have hplace : 0 < lastPlace n := Nat.two_pow_pos _
  have hpow : ∀ k, n.log2 ≤ k → 2 ^ k = 2 ^ (k - (n.log2 - 52)) * lastPlace n := by
    intro k hk
    rw [lastPlace, ← Nat.pow_add]
    congr 1
    omega
  have hexact : ∀ k, n.log2 ≤ k → roundHalfEven (2 ^ k) (lastPlace n) * lastPlace n = 2 ^ k := by
    intro k hk
    rw [hpow k hk, roundHalfEven_mul hplace]
  constructor
  · calc 2 ^ n.log2
      _ = roundHalfEven (2 ^ n.log2) (lastPlace n) * lastPlace n := (hexact _ le_rfl).symm
      _ ≤ roundedNat n :=
        Nat.mul_le_mul_right _ (roundHalfEven_le_roundHalfEven _ (Nat.log2_self_le h))
  · calc roundedNat n
      _ ≤ roundHalfEven (2 ^ (n.log2 + 1)) (lastPlace n) * lastPlace n :=
        Nat.mul_le_mul_right _ (roundHalfEven_le_roundHalfEven _ Nat.lt_log2_self.le)
      _ = 2 ^ (n.log2 + 1) := hexact _ (Nat.le_succ _)

theorem roundedNat_le_roundedNat {n m : Nat} (h : n ≤ m) : roundedNat n ≤ roundedNat m := by
  rcases Nat.eq_zero_or_pos n with rfl | hn
  · rw [roundedNat_eq_self (Nat.zero_le _)]
    exact Nat.zero_le _
  have hm : m ≠ 0 := by omega
  have hlog : n.log2 ≤ m.log2 := by
    rw [Nat.le_log2 hm]
    exact (Nat.log2_self_le hn.ne').trans h
  rcases hlog.eq_or_lt with heq | hlt
  · simp only [roundedNat, lastPlace, heq]
    exact Nat.mul_le_mul_right _ (roundHalfEven_le_roundHalfEven _ h)
  · calc roundedNat n
      _ ≤ 2 ^ (n.log2 + 1) := (roundedNat_bounds hn.ne').2
      _ ≤ 2 ^ m.log2 := Nat.pow_le_pow_right Nat.two_pos hlt
      _ ≤ roundedNat m := (roundedNat_bounds hm).1

theorem rounded_signed (negative : Bool) (n : Nat) :
    rounded (signed negative n) = signed negative (roundedNat n) := by
  have hzero : roundedNat 0 = 0 := roundedNat_eq_self (Nat.zero_le _)
  cases negative with
  | false => simp [rounded, signed]
  | true =>
    rcases Nat.eq_zero_or_pos n with rfl | hpos
    · simp [rounded, signed, hzero]
    · simp [rounded, signed, hpos]

/-- Rounding does not turn two integers round. -/
theorem rounded_le_rounded {i j : Int} (h : i ≤ j) : rounded i ≤ rounded j := by
  simp only [rounded, signed, decide_eq_true_eq]
  split
  · split
    · have := roundedNat_le_roundedNat (by omega : j.natAbs ≤ i.natAbs)
      omega
    · omega
  · rw [if_neg (by omega)]
    exact_mod_cast roundedNat_le_roundedNat (by omega : i.natAbs ≤ j.natAbs)

theorem lt_of_rounded_lt {i j : Int} (h : rounded i < rounded j) : i < j := by
  by_contra hnot
  exact absurd h (rounded_le_rounded (not_lt.1 hnot)).not_gt

/-- An integer of no more than 53 digits is rounded to itself. -/
theorem rounded_eq_self {i : Int} (h : i.natAbs ≤ 2 ^ 53) : rounded i = i := by
  rw [rounded, roundedNat_eq_self h, signed_natAbs]

/-- What lies beyond 2⁵³ is rounded to nothing nearer. -/
theorem natAbs_rounded {i : Int} (h : 2 ^ 53 ≤ i.natAbs) :
    2 ^ 53 ≤ (rounded i).natAbs ∧ (i < 0 ↔ rounded i < 0) := by
  have hbig := roundedNat_le_roundedNat h
  rw [roundedNat_eq_self le_rfl] at hbig
  simp only [rounded, signed, decide_eq_true_eq]
  split <;> omega

/-- An integer below 2⁵³ is told apart from every other. -/
theorem rounded_lt_rounded_iff {i j : Int} (h : i.natAbs < 2 ^ 53 ∨ j.natAbs < 2 ^ 53) :
    rounded i < rounded j ↔ i < j := by
  refine ⟨lt_of_rounded_lt, fun hlt => ?_⟩
  have hi : i.natAbs ≤ 2 ^ 53 → rounded i = i := rounded_eq_self
  have hj : j.natAbs ≤ 2 ^ 53 → rounded j = j := rounded_eq_self
  have hi' : 2 ^ 53 ≤ i.natAbs → _ := natAbs_rounded
  have hj' : 2 ^ 53 ≤ j.natAbs → _ := natAbs_rounded
  omega

end Number

namespace Binary64

open Number

/-! ## The number nearest to an integer -/

section

variable {x : Binary64}

/-- The value of a magnitude by its parts; the digits may carry over into the exponent. -/
theorem value_of_magnitude {q : Int} {r : Nat} (hq : -1074 ≤ q) (hleast : 2 ^ 52 ≤ r)
    (hmost : r ≤ 2 ^ 53) (h : x.magnitude = (q + 1074).toNat * 0x10000000000000 + r) :
    x.value = r * (2 : ℚ) ^ q := by
  have hnormal : ¬ x.magnitude < 0x10000000000000 := by omega
  rcases hmost.eq_or_lt with rfl | hlt
  · have hsig : x.significand = 2 ^ 52 := by
      rw [significand, if_neg hnormal]
      omega
    have hexp : x.exponent = q + 1 := by
      rw [exponent, if_neg hnormal]
      omega
    rw [value, hsig, hexp, zpow_add₀ two_ne_zero]
    norm_num
    ring
  · have hsig : x.significand = r := by
      rw [significand, if_neg hnormal]
      omega
    have hexp : x.exponent = q := by
      rw [exponent, if_neg hnormal]
      omega
    rw [value, hsig, hexp]

end

theorem floorLog2_one {n : Nat} (h : n ≠ 0) : floorLog2 n 1 = n.log2 := by
  rw [floorLog2_eq_log h Nat.one_ne_zero, Nat.cast_one, div_one, Int.log_natCast, Nat.log2_eq_log_two]

/-- The digits of an integer, counted in its last place. -/
theorem roundHalfEven_divPow_value (n : Nat) :
    (roundHalfEven (divPow n 1 2 ((n.log2 : Int) - 52)).1 (divPow n 1 2 ((n.log2 : Int) - 52)).2 : ℚ)
        * (2 : ℚ) ^ ((n.log2 : Int) - 52) = roundedNat n := by
  rcases Nat.le_total 52 n.log2 with hlog | hlog
  · obtain ⟨k, hk⟩ := Nat.exists_eq_add_of_le hlog
    have hq : (n.log2 : Int) - 52 = k := by omega
    have hplace : lastPlace n = 2 ^ k := by
      rw [lastPlace, hk]
      congr 1
      omega
    simp [hq, divPow, roundedNat, hplace]
  · obtain ⟨k, hk⟩ := Nat.exists_eq_add_of_le hlog
    have hq : (n.log2 : Int) - 52 = -k := by omega
    have hvalue : ((divPow n 1 2 (-(k : Int))).1 : ℚ) / (divPow n 1 2 (-(k : Int))).2
        = (n * 2 ^ k : Nat) / (1 : Nat) := by
      rw [divPow_value Nat.two_pos]
      simp
    have hself : roundedNat n = n :=
      roundedNat_eq_self (Nat.lt_log2_self.le.trans (Nat.pow_le_pow_right Nat.two_pos (by omega)))
    rw [hq, roundHalfEven_congr (divPow_den_pos Nat.two_pos Nat.one_pos _) Nat.one_pos hvalue, hself,
      ← Nat.mul_one (n * 2 ^ k), roundHalfEven_mul Nat.one_pos]
    simp

/-- An integer has 53 digits, or it is rounded up to the least number of 54. -/
theorem roundHalfEven_divPow_bounds {n : Nat} (h : n ≠ 0) :
    2 ^ 52 ≤ roundHalfEven (divPow n 1 2 ((n.log2 : Int) - 52)).1 (divPow n 1 2 ((n.log2 : Int) - 52)).2
      ∧ roundHalfEven (divPow n 1 2 ((n.log2 : Int) - 52)).1 (divPow n 1 2 ((n.log2 : Int) - 52)).2
        ≤ 2 ^ 53 := by
  have hvalue := roundHalfEven_divPow_value n
  obtain ⟨hlow, hhigh⟩ := roundedNat_bounds h
  generalize roundHalfEven _ _ = r at hvalue ⊢
  have hpos : (0 : ℚ) < 2 ^ ((n.log2 : Int) - 52) := by positivity
  have hpow : ∀ k : Nat, (2 : ℚ) ^ k * 2 ^ ((n.log2 : Int) - 52) = 2 ^ ((k : Int) + n.log2 - 52) := by
    intro k
    rw [← zpow_natCast, ← zpow_add₀ two_ne_zero]
    congr 1
    ring
  constructor
  · have hle : (2 : ℚ) ^ 52 * 2 ^ ((n.log2 : Int) - 52) ≤ r * 2 ^ ((n.log2 : Int) - 52) := by
      rw [hvalue, hpow, show ((52 : Nat) : Int) + n.log2 - 52 = (n.log2 : Nat) by omega, zpow_natCast]
      exact_mod_cast hlow
    exact_mod_cast le_of_mul_le_mul_right hle hpos
  · have hle : (r : ℚ) * 2 ^ ((n.log2 : Int) - 52) ≤ (2 : ℚ) ^ 53 * 2 ^ ((n.log2 : Int) - 52) := by
      rw [hvalue, hpow, show ((53 : Nat) : Int) + n.log2 - 52 = ((n.log2 + 1 : Nat) : Int) by omega,
        zpow_natCast]
      exact_mod_cast hhigh
    exact_mod_cast le_of_mul_le_mul_right hle hpos

/-- The integers that are read are far from the greatest numbers. -/
theorem log2_le_of_le {n : Nat} (h : n ≤ 0x8000000000000000) : n.log2 ≤ 63 := by
  rcases Nat.eq_zero_or_pos n with rfl | hpos
  · decide
  · rw [← Nat.lt_succ_iff, Nat.log2_lt hpos.ne']
    omega

theorem nearestMagnitude_one {n : Nat} (h : n ≠ 0) (hle : n ≤ 0x8000000000000000) :
    nearestMagnitude n 1 = ((n.log2 : Int) - 52 + 1074).toNat * 0x10000000000000
        + roundHalfEven (divPow n 1 2 ((n.log2 : Int) - 52)).1 (divPow n 1 2 ((n.log2 : Int) - 52)).2
      ∧ nearestMagnitude n 1 < infiniteMagnitude := by
  have hlog := log2_le_of_le hle
  have hmost := (roundHalfEven_divPow_bounds h).2
  simp only [nearestMagnitude, h, if_false, floorLog2_one h,
    max_eq_left (by omega : (-1074 : Int) ≤ (n.log2 : Int) - 52)]
  generalize roundHalfEven _ _ = r at hmost ⊢
  rw [infiniteMagnitude]
  omega

theorem isNegative_ofMagnitude {negative : Bool} {magnitude : Nat}
    (h : magnitude < 0x8000000000000000) : (ofMagnitude negative magnitude).isNegative = negative := by
  cases negative <;> simp [ofMagnitude, isNegative] <;> omega

/-- The value of a number by its sign and its magnitude. -/
theorem signedValue_ofMagnitude {negative : Bool} {magnitude n : Nat}
    (h : magnitude < 0x8000000000000000) (hvalue : (ofMagnitude negative magnitude).value = n) :
    (ofMagnitude negative magnitude).signedValue = (signed negative n : Int) := by
  rw [signedValue, isNegative_ofMagnitude h, hvalue, signed]
  cases negative <;> simp

theorem isFinite_ofMagnitude {negative : Bool} {magnitude : Nat} (h : magnitude < infiniteMagnitude) :
    (ofMagnitude negative magnitude).isFinite = true := by
  have hlt : infiniteMagnitude < 0x8000000000000000 := by decide
  rwa [isFinite, magnitude_ofMagnitude (h.trans hlt), decide_eq_true_eq]

/-- The number nearest to an integer is the integer, rounded to 53 binary digits. -/
theorem signedValue_nearest (negative : Bool) {n : Nat} (hle : n ≤ 0x8000000000000000) :
    (nearest negative n 1).isFinite = true
      ∧ (nearest negative n 1).signedValue = (signed negative (roundedNat n) : Int) := by
  have hinfinite : infiniteMagnitude < 0x8000000000000000 := by decide
  rcases Nat.eq_zero_or_pos n with rfl | hpos
  · have hzero : (ofMagnitude negative 0).value = (0 : Nat) := by
      rw [value_eq_zero (magnitude_ofMagnitude (by decide)), Nat.cast_zero]
    rw [roundedNat_eq_self (Nat.zero_le _)]
    exact ⟨isFinite_ofMagnitude (by decide), signedValue_ofMagnitude (by decide) hzero⟩
  · obtain ⟨hmagnitude, hlt⟩ := nearestMagnitude_one hpos.ne' hle
    obtain ⟨hleast, hmost⟩ := roundHalfEven_divPow_bounds hpos.ne'
    have hvalue : (nearest negative n 1).value = roundedNat n := by
      rw [← roundHalfEven_divPow_value n]
      apply value_of_magnitude (by omega) hleast hmost
      rw [nearest, magnitude_ofMagnitude (hlt.trans hinfinite), hmagnitude]
    exact ⟨isFinite_ofMagnitude hlt, signedValue_ofMagnitude (hlt.trans hinfinite) hvalue⟩

/-- The number of a 64-bit integer is the integer, rounded to 53 binary digits. -/
theorem signedValue_ofInt (i : Int64) :
    (ofInt i.toInt).isFinite = true ∧ (ofInt i.toInt).signedValue = (rounded i.toInt : ℚ) := by
  have hlow := Int64.le_toInt i
  have hhigh := Int64.toInt_lt i
  exact signedValue_nearest (decide (i.toInt < 0)) (by omega)

/-! ## Reading an integer as a number -/

/-- Digits are a decimal without a fraction. -/
theorem readDecimal_of_isDigits {digits : List Char} (h : isDigits digits = true) :
    readDecimal digits = some (ofDigits digits, 0) := by
  simp only [isDigits, Bool.and_eq_true, Bool.not_eq_true', List.all_eq_true,
    List.isEmpty_eq_false_iff] at h
  have hread := @readDecimal_append digits [] h.1 h.2 (by simp)
  rwa [List.append_nil, readExponent, Option.map_some] at hread

/-- An integer is neither too great nor too small to be read as a number. -/
theorem ofDecimal_zero (negative : Bool) {n : Nat} (hle : n ≤ 0x8000000000000000) :
    ofDecimal negative n 0 = nearest negative n 1 := by
  by_cases hzero : n = 0
  · subst hzero
    rfl
  · have hlength : (Nat.toDigits 10 n).length ≤ 310 := by
      rw [Nat.length_toDigits_le_iff (by decide) (by decide)]
      exact hle.trans_lt (by decide +kernel)
    have hgreat : ¬ (310 : Int) < 0 + (Nat.toDigits 10 n).length := by omega
    have hsmall : ¬ (0 : Int) + (Nat.toDigits 10 n).length < -330 := by omega
    simp only [ofDecimal, hzero, hgreat, hsmall, if_false]
    simp [divPow]

/-- A text that reads as a 64-bit integer reads as a number, and the number is the integer rounded to
53 binary digits. -/
theorem exists_ofText?_of_readInteger {cs : List Char} {i : Int64} (h : readInteger cs = some i) :
    ∃ x, ofText? cs = some x ∧ x.isFinite = true ∧ x.signedValue = (rounded i.toInt : ℚ) := by
  simp only [readInteger, toInt64?] at h
  split at h
  · rename_i hdigits
    split at h
    · rename_i hrange
      have hle : ofDigits (splitSign cs).2 ≤ 0x8000000000000000 := by
        simp only [signed] at hrange
        split at hrange <;> omega
      have hi : i.toInt = signed (splitSign cs).1 (ofDigits (splitSign cs).2) := by
        rw [← Option.some.inj h]
        exact Int64.toInt_ofInt_of_le hrange.1 hrange.2
      obtain ⟨hfinite, hvalue⟩ := signedValue_nearest (splitSign cs).1 hle
      refine ⟨nearest (splitSign cs).1 (ofDigits (splitSign cs).2) 1, ?_, hfinite, ?_⟩
      · simp only [ofText?, readDecimal_of_isDigits hdigits, ofDecimal_zero _ hle]
      · rw [hvalue, hi, rounded_signed]
    · cases h
  · cases h

end Binary64

end UriRouting
