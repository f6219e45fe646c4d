import UriRouting.Proofs.Number.Rounding
import UriRouting.Text.Runs
/-!
# Reading numbers that were written

A 64-bit integer and a finite double-precision number read back as the same number, bit for bit, in
each style of writing.

Main statements: `Number.readInteger_writeInteger` and `Binary64.ofText?_write`.
-/

namespace UriRouting

/-! ## Digits -/

namespace Number

theorem ofDigits_append (cs ds : List Char) :
    ofDigits (cs ++ ds) = ofDigits cs * 10 ^ ds.length + ofDigits ds := by
  rw [Nat.mul_comm]
  exact (Nat.ofDigitChars_append 0).trans Nat.ofDigitChars_eq_ofDigitChars_zero

theorem ofDigits_replicate_zero (n : Nat) : ofDigits (List.replicate n '0') = 0 :=
  Nat.ofDigitChars_replicate_zero.trans (Nat.mul_zero _)

theorem ofDigits_toDigits (n : Nat) : ofDigits (Nat.toDigits 10 n) = n :=
  Nat.ofDigitChars_ten_toDigits

theorem isDigit_of_mem_toDigits {n : Nat} : ∀ c ∈ Nat.toDigits 10 n, c.isDigit = true :=
  fun _ hc => Nat.isDigit_of_mem_toDigits (by decide) (by decide) hc

theorem isDigits_toDigits (n : Nat) : isDigits (Nat.toDigits 10 n) = true := by
  simpa [isDigits] using fun c hc => isDigit_of_mem_toDigits c hc

/-- Digits have no sign in front. -/
theorem splitSign_of_isDigit {c : Char} (hc : c.isDigit = true) (cs : List Char) :
    splitSign (c :: cs) = (false, c :: cs) := by
  unfold splitSign
  split
  · rename_i heq
    cases heq
    cases hc
  · rename_i heq
    cases heq
    cases hc
  · rfl

theorem exists_cons_toDigits (n : Nat) :
    ∃ c cs, Nat.toDigits 10 n = c :: cs ∧ c.isDigit = true := by
  cases hdigits : Nat.toDigits 10 n with
  | nil => exact absurd hdigits Nat.toDigits_ne_nil
  | cons c cs => exact ⟨c, cs, rfl, isDigit_of_mem_toDigits c (hdigits ▸ List.mem_cons_self)⟩

theorem writeSigned_ne_nil (i : Int) : writeSigned i ≠ [] := by
  obtain ⟨c, cs, hdigits, -⟩ := exists_cons_toDigits i.natAbs
  simp only [writeSigned, hdigits]
  split <;> exact List.cons_ne_nil _ _

theorem splitSign_writeSigned (i : Int) :
    splitSign (writeSigned i) = (decide (i < 0), Nat.toDigits 10 i.natAbs) := by
  simp only [writeSigned]
  split
  · rename_i hneg
    rw [splitSign, decide_eq_true hneg]
  · rename_i hneg
    obtain ⟨c, cs, hdigits, hc⟩ := exists_cons_toDigits i.natAbs
    rw [hdigits, splitSign_of_isDigit hc, decide_eq_false hneg]

theorem signed_natAbs (i : Int) : signed (decide (i < 0)) i.natAbs = i := by
  by_cases hneg : i < 0
  · rw [signed, decide_eq_true hneg, if_pos rfl]
    omega
  · rw [signed, decide_eq_false hneg, if_neg (by simp)]
    omega

/-- A 64-bit integer reads back as itself. -/
theorem readInteger_writeInteger (i : Int64) : readInteger (writeInteger i) = some i := by
  have hlow : -0x8000000000000000 ≤ i.toInt := Int64.le_toInt i
  have hhigh : i.toInt < 0x8000000000000000 := Int64.toInt_lt i
  simp only [readInteger, writeInteger, splitSign_writeSigned, isDigits_toDigits, if_true,
    ofDigits_toDigits, signed_natAbs, toInt64?]
  rw [if_pos ⟨hlow, hhigh⟩, Int64.ofInt_toInt]

end Number

namespace Binary64

open Number

/-! ## Reading decimals -/

/-- Reads a decimal without a point. -/
theorem readDecimal_append {digits tail : List Char} (hne : digits ≠ [])
    (hdigits : ∀ c ∈ digits, c.isDigit = true)
    (htail : ∀ c ∈ tail.head?, c.isDigit = false ∧ c ≠ '.') :
    readDecimal (digits ++ tail) = (readExponent tail).map fun e => (ofDigits digits, e) := by
  have hend : ∀ c ∈ tail.head?, c.isDigit = false := fun c hc => (htail c hc).1
  have htake := Text.takeWhile_run_append hdigits hend
  have hdrop := Text.dropWhile_run_append hdigits hend
  have hempty : digits.isEmpty = false := List.isEmpty_eq_false_iff.2 hne
  simp only [readDecimal, htake, hdrop, hempty]
  cases tail with
  | nil => simp
  | cons c tail => simp [(htail c rfl).2]

/-- Reads a decimal with a point. -/
theorem readDecimal_point {whole fraction tail : List Char} (hne : whole ≠ [])
    (hwhole : ∀ c ∈ whole, c.isDigit = true) (hfraction : ∀ c ∈ fraction, c.isDigit = true)
    (htail : ∀ c ∈ tail.head?, c.isDigit = false) :
    readDecimal (whole ++ '.' :: (fraction ++ tail))
      = (readExponent tail).map fun e : Int =>
          (ofDigits (whole ++ fraction), e - fraction.length) := by
  have hpoint : ∀ c ∈ ('.' :: (fraction ++ tail)).head?, c.isDigit = false := by simp
  have htake := Text.takeWhile_run_append hwhole hpoint
  have hdrop := Text.dropWhile_run_append hwhole hpoint
  have htake' := Text.takeWhile_run_append hfraction htail
  have hdrop' := Text.dropWhile_run_append hfraction htail
  have hempty : whole.isEmpty = false := List.isEmpty_eq_false_iff.2 hne
  simp only [readDecimal, htake, hdrop, htake', hdrop', hempty]
  simp

theorem readExponent_writeSigned (i : Int) : readExponent ('e' :: writeSigned i) = some i := by
  simp [readExponent, splitSign_writeSigned, isDigits_toDigits, ofDigits_toDigits, signed_natAbs]

/-! ## The number of a decimal -/

/-- The sign of a decimal does not change the magnitude of its number. -/
theorem exists_ofDecimal_eq (digits : Nat) (exponent : Int) :
    ∃ magnitude < 0x8000000000000000,
      ∀ negative, ofDecimal negative digits exponent = ofMagnitude negative magnitude := by
  have hinfinite : infiniteMagnitude < 0x8000000000000000 := by decide
  by_cases hzero : digits = 0
  · exact ⟨0, by decide, fun _ => by simp only [ofDecimal, hzero, if_true]⟩
  by_cases hgreat : 310 < exponent + (Nat.toDigits 10 digits).length
  · exact ⟨_, hinfinite, fun _ => by simp only [ofDecimal, hzero, hgreat, if_true, if_false]; rfl⟩
  by_cases hsmall : exponent + (Nat.toDigits 10 digits).length < -330
  · exact ⟨0, by decide, fun _ => by simp only [ofDecimal, hzero, hgreat, hsmall, if_true, if_false]⟩
  · exact ⟨_, (nearestMagnitude_le _ _).trans_lt hinfinite,
      fun _ => by simp only [ofDecimal, hzero, hgreat, hsmall, if_false]; rfl⟩

/-- A decimal of a number's absolute value is a decimal of the number with its sign. -/
theorem ofDecimal_of_abs {x : Binary64} {digits : Nat} {exponent : Int}
    (h : ofDecimal false digits exponent = x.abs) : ofDecimal x.isNegative digits exponent = x := by
  obtain ⟨magnitude, hlt, heq⟩ := exists_ofDecimal_eq digits exponent
  have habs : x.magnitude < 0x8000000000000000 := Nat.mod_lt _ (by decide)
  rw [heq, abs] at h
  have hmagnitude := congrArg Binary64.magnitude h
  rw [magnitude_ofMagnitude hlt, magnitude_ofMagnitude habs] at hmagnitude
  rw [heq, hmagnitude, ofMagnitude_magnitude]

theorem length_toDigits_mul_pow {digits : Nat} (h : digits ≠ 0) (k : Nat) :
    (Nat.toDigits 10 (digits * 10 ^ k)).length = (Nat.toDigits 10 digits).length + k := by
  induction k with
  | zero => simp
  | succ k ih =>
    have hpos : 0 < digits * 10 ^ k := by positivity
    have hmore := @Nat.toDigits_append_toDigits 10 _ 0 (by decide) hpos (by decide)
    rw [Nat.pow_succ, ← Nat.mul_assoc, Nat.mul_comm _ 10, ← Nat.add_zero (10 * _), ← hmore,
      List.length_append, ih]
    rfl

/-- Zeros at the end of the digits of a decimal can go into its exponent. -/
theorem ofDecimal_mul_pow (negative : Bool) (digits k : Nat) (exponent : Int) :
    ofDecimal negative (digits * 10 ^ k) exponent = ofDecimal negative digits (exponent + k) := by
  by_cases hzero : digits = 0
  · simp [ofDecimal, hzero]
  have hzero' : ¬ digits * 10 ^ k = 0 := by positivity
  have hsize : exponent + ((Nat.toDigits 10 (digits * 10 ^ k)).length : Int)
      = exponent + k + (Nat.toDigits 10 digits).length := by
    rw [length_toDigits_mul_pow hzero]
    omega
  have hvalue : (divPow (digits * 10 ^ k) 1 10 (-exponent)).1
        / ((divPow (digits * 10 ^ k) 1 10 (-exponent)).2 : ℚ)
      = (divPow digits 1 10 (-(exponent + k))).1 / ((divPow digits 1 10 (-(exponent + k))).2 : ℚ) := by
    rw [divPow_value (by decide), divPow_value (by decide), zpow_neg, zpow_neg, div_inv_eq_mul,
      div_inv_eq_mul, zpow_add₀ (by norm_num)]
    push_cast
    rw [zpow_natCast]
    ring
  have hnearest := nearestMagnitude_congr (divPow_den_pos (by decide) Nat.one_pos _)
    (divPow_den_pos (by decide) Nat.one_pos _) hvalue
  simp only [ofDecimal, hzero, hzero', if_false, hsize, nearest, hnearest]

/-! ## Exact digits -/

section

variable {x : Binary64}

theorem pow_length_toDigits_bounds {digits : Nat} (h : digits ≠ 0) :
    10 ^ ((Nat.toDigits 10 digits).length - 1) ≤ digits
      ∧ digits < 10 ^ (Nat.toDigits 10 digits).length := by
  have hpos : 0 < (Nat.toDigits 10 digits).length := Nat.length_toDigits_pos
  constructor
  · by_cases hone : (Nat.toDigits 10 digits).length - 1 = 0
    · rw [hone, Nat.pow_zero]
      exact Nat.pos_of_ne_zero h
    · rw [← not_lt, ← Nat.length_toDigits_le_iff (by decide) (Nat.pos_of_ne_zero hone)]
      omega
  · exact (Nat.length_toDigits_le_iff (by decide) hpos).1 le_rfl

/-- The exact digits of a finite number have its value. -/
theorem exactDecimal_value (x : Binary64) :
    (x.exactDecimal.1 : ℚ) * (10 : ℚ) ^ x.exactDecimal.2 = x.value := by
  simp only [exactDecimal, value]
  split
  · rename_i hq
    obtain ⟨n, hn⟩ := Int.eq_ofNat_of_zero_le hq
    simp [hn]
  · rename_i hq
    obtain ⟨n, hn⟩ := Int.eq_ofNat_of_zero_le (by omega : 0 ≤ -x.exponent)
    obtain hexp : x.exponent = -n := by omega
    have hten : (10 : ℚ) ^ n = 5 ^ n * 2 ^ n := by rw [← mul_pow]; norm_num
    simp [hexp, hten]
    field_simp

/-- The values of finite numbers other than zero. -/
theorem value_bounds (h : x.isFinite = true) (hne : x.magnitude ≠ 0) :
    (2 : ℚ) ^ (-1074 : Int) ≤ x.value ∧ x.value < 2 ^ (1024 : Int) := by
  obtain ⟨hlow, hhigh⟩ := exponent_bounds h
  have hone : (1 : ℚ) ≤ x.significand := by
    exact_mod_cast Nat.one_le_iff_ne_zero.2 (significand_ne_zero hne)
  have hlt : (x.significand : ℚ) < 2 ^ (53 : Int) := by exact_mod_cast significand_lt x
  constructor
  · calc (2 : ℚ) ^ (-1074 : Int)
      _ ≤ 2 ^ x.exponent := zpow_le_zpow_right₀ one_le_two hlow
      _ ≤ x.value := le_mul_of_one_le_left (by positivity) hone
  · calc x.value
      _ < 2 ^ (53 : Int) * 2 ^ x.exponent := by
        rw [value]
        gcongr
      _ ≤ 2 ^ (53 : Int) * 2 ^ (971 : Int) := by
        gcongr
        exact one_le_two
      _ = 2 ^ (1024 : Int) := by rw [← zpow_add₀ two_ne_zero]; rfl

/-- A decimal of the value of a finite number is neither too great nor too small to be read. -/
theorem point_bounds_of_value (h : x.isFinite = true) (hne : x.magnitude ≠ 0) {digits : Nat}
    (hzero : digits ≠ 0) {exponent : Int} (hvalue : (digits : ℚ) * (10 : ℚ) ^ exponent = x.value) :
    exponent + ((Nat.toDigits 10 digits).length : Int) ≤ 310
      ∧ -330 ≤ exponent + ((Nat.toDigits 10 digits).length : Int) := by
  obtain ⟨hlow, hhigh⟩ := value_bounds h hne
  obtain ⟨hleast, hmost⟩ := pow_length_toDigits_bounds hzero
  have hpos : 0 < (Nat.toDigits 10 digits).length := Nat.length_toDigits_pos
  have hten : (1 : ℚ) ≤ 10 := by norm_num
  constructor
  · by_contra hsize
    have hbig : (10 : ℚ) ^ (310 : Int) ≤ x.value :=
      calc (10 : ℚ) ^ (310 : Int)
        _ ≤ 10 ^ ((((Nat.toDigits 10 digits).length - 1 : Nat) : Int) + exponent) :=
          zpow_le_zpow_right₀ hten (by omega)
        _ = 10 ^ ((Nat.toDigits 10 digits).length - 1) * 10 ^ exponent := by
          rw [zpow_add₀ (by norm_num), zpow_natCast]
        _ ≤ digits * 10 ^ exponent := by
          gcongr
          exact_mod_cast hleast
        _ = x.value := hvalue
    have hless : (2 : ℚ) ^ (1024 : Int) ≤ 10 ^ (310 : Int) := by
      exact_mod_cast (by decide +kernel : 2 ^ 1024 ≤ 10 ^ 310)
    exact absurd (hbig.trans_lt hhigh) (not_lt.2 hless)
  · by_contra hsize
    have hlittle : x.value < (10 : ℚ) ^ (-330 : Int) :=
      calc x.value
        _ = digits * 10 ^ exponent := hvalue.symm
        _ < 10 ^ (Nat.toDigits 10 digits).length * 10 ^ exponent := by
          gcongr
          exact_mod_cast hmost
        _ = 10 ^ (((Nat.toDigits 10 digits).length : Int) + exponent) := by
          rw [zpow_add₀ (by norm_num), zpow_natCast]
        _ ≤ 10 ^ (-330 : Int) := zpow_le_zpow_right₀ hten (by omega)
    have hless : (10 : ℚ) ^ (-330 : Int) ≤ 2 ^ (-1074 : Int) := by
      rw [zpow_neg, zpow_neg, inv_le_inv₀ (by positivity) (by positivity)]
      exact_mod_cast (by decide +kernel : 2 ^ 1074 ≤ 10 ^ 330)
    exact absurd (hlow.trans_lt hlittle) (not_lt.2 hless)

/-- A decimal of the very value of a finite number reads back as the number. -/
theorem ofDecimal_of_value (h : x.isFinite = true) (hne : x.magnitude ≠ 0) {digits : Nat}
    {exponent : Int} (hvalue : (digits : ℚ) * (10 : ℚ) ^ exponent = x.value) :
    ofDecimal false digits exponent = x.abs := by
  have hzero : digits ≠ 0 := by
    rintro rfl
    have hlow := (value_bounds h hne).1
    rw [← hvalue, Nat.cast_zero, zero_mul] at hlow
    exact absurd hlow (not_le.2 (by positivity))
  obtain ⟨hmost, hleast⟩ := point_bounds_of_value h hne hzero hvalue
  have hnearest : nearestMagnitude (divPow digits 1 10 (-exponent)).1 (divPow digits 1 10 (-exponent)).2
      = x.magnitude := by
    apply nearestMagnitude_eq_magnitude h hne (divPow_den_pos (by decide) Nat.one_pos _)
    rw [divPow_value (by decide), zpow_neg, div_inv_eq_mul, ← hvalue]
    simp
  simp only [ofDecimal, hzero, not_lt.2 hmost, not_lt.2 hleast, if_false, nearest, hnearest, abs]

/-- The fewest digits of a finite number read back as the number. -/
theorem ofDecimal_shortestDecimal (h : x.isFinite = true) (hne : x.magnitude ≠ 0) :
    ofDecimal false x.shortestDecimal.1 x.shortestDecimal.2 = x.abs := by
  simp only [shortestDecimal]
  generalize hfound : List.findSome? _ (List.range 17) = found
  cases found with
  | none => exact ofDecimal_of_value h hne x.exactDecimal_value
  | some decimal =>
    obtain ⟨n, -, hn⟩ := List.exists_of_findSome?_eq_some hfound
    simpa using List.find?_some hn

end

/-! ## The text of a number -/

/-- The digits of a decimal without the zeros at their end. -/
theorem exists_significantDigits (digits : Nat) (exponent : Int) :
    ∃ k : Nat, digits = ofDigits (significantDigits digits exponent).1 * 10 ^ k
      ∧ (significantDigits digits exponent).2
        = (significantDigits digits exponent).1.length + k + exponent
      ∧ ∀ c ∈ (significantDigits digits exponent).1, c.isDigit = true := by
  simp only [significantDigits]
  obtain ⟨k, hk⟩ : ∃ k, (Nat.toDigits 10 digits).reverse.takeWhile (· == '0') = List.replicate k '0' :=
    ⟨_, List.eq_replicate_of_mem fun c hc => by simpa using List.mem_takeWhile_imp hc⟩
  have hall : Nat.toDigits 10 digits
      = ((Nat.toDigits 10 digits).reverse.dropWhile (· == '0')).reverse ++ List.replicate k '0' := by
    rw [← List.reverse_inj, List.reverse_append, List.reverse_reverse, List.reverse_replicate, ← hk,
      List.takeWhile_append_dropWhile]
  refine ⟨k, ?_, ?_, ?_⟩
  · calc digits
      _ = ofDigits (Nat.toDigits 10 digits) := (ofDigits_toDigits digits).symm
      _ = _ := by
        conv_lhs => rw [hall]
        rw [ofDigits_append, ofDigits_replicate_zero, List.length_replicate, Nat.add_zero]
  · have hlength := congrArg List.length hall
    rw [List.length_append, List.length_replicate] at hlength
    omega
  · intro c hc
    apply isDigit_of_mem_toDigits (n := digits)
    rw [hall]
    exact List.mem_append_left _ hc

/-- Digits with an exponent read back. -/
theorem readDecimal_scientific {digits : List Char} (hne : digits ≠ [])
    (hdigits : ∀ c ∈ digits, c.isDigit = true) (point : Int) :
    readDecimal (scientific digits point) = some (ofDigits digits, point - digits.length) := by
  cases digits with
  | nil => exact absurd rfl hne
  | cons d more =>
    cases more with
    | nil =>
      have hread := @readDecimal_append [d] ('e' :: writeSigned (point - 1)) hne hdigits (by simp)
      simpa [scientific, readExponent_writeSigned] using hread
    | cons d' more =>
      obtain ⟨hd, hmore⟩ := List.forall_mem_cons.1 hdigits
      have hread := @readDecimal_point [d] (d' :: more) ('e' :: writeSigned (point - 1)) (by simp)
        (by simpa using hd) hmore (by simp)
      rw [readExponent_writeSigned, Option.map_some] at hread
      refine Eq.trans hread ?_
      simp only [List.cons_append, List.nil_append, List.length_cons]
      congr 2
      omega

/-- A text reads as digits with a point at some place, up to zeros at their end. -/
def ReadsAs (text digits : List Char) (point : Int) : Prop :=
  ∃ n exponent, readDecimal text = some (n, exponent)
    ∧ ∀ negative, ofDecimal negative n exponent
      = ofDecimal negative (ofDigits digits) (point - digits.length)

section

variable {digits : List Char} {point : Int}

theorem isDigit_of_mem_zeros (n : Nat) : ∀ c ∈ List.replicate n '0', c.isDigit = true :=
  fun _ hc => (List.eq_of_mem_replicate hc) ▸ rfl

/-- The point comes in front of the digits. -/
theorem readsAs_leading (hdigits : ∀ c ∈ digits, c.isDigit = true) (hpoint : point ≤ 0) :
    ReadsAs ('0' :: '.' :: List.replicate (-point).toNat '0' ++ digits) digits point := by
  have hread := @readDecimal_point ['0'] (List.replicate (-point).toNat '0' ++ digits) [] (by simp)
    (by simp) (List.forall_mem_append.2 ⟨isDigit_of_mem_zeros _, hdigits⟩) (by simp)
  refine ⟨_, _, by simpa [readExponent] using hread, ?_⟩
  intro negative
  rw [show '0' :: (List.replicate (-point).toNat '0' ++ digits)
    = List.replicate ((-point).toNat + 1) '0' ++ digits from rfl, ofDigits_append,
    ofDigits_replicate_zero]
  simp only [Nat.zero_mul, Nat.zero_add]
  congr 1
  omega

/-- The point comes behind the digits. -/
theorem readsAs_trailing (hne : digits ≠ []) (hdigits : ∀ c ∈ digits, c.isDigit = true)
    (hlength : digits.length ≤ point.toNat) (hpoint : ¬ point ≤ 0) (keepsFraction : Bool) :
    ReadsAs (digits ++ List.replicate (point.toNat - digits.length) '0'
      ++ if keepsFraction then ['.', '0'] else []) digits point := by
  have hwhole : ∀ c ∈ digits ++ List.replicate (point.toNat - digits.length) '0',
      c.isDigit = true := List.forall_mem_append.2 ⟨hdigits, isDigit_of_mem_zeros _⟩
  have hvalue : ofDigits (digits ++ List.replicate (point.toNat - digits.length) '0')
      = ofDigits digits * 10 ^ (point.toNat - digits.length) := by
    rw [ofDigits_append, ofDigits_replicate_zero, List.length_replicate, Nat.add_zero]
  cases keepsFraction with
  | false =>
    have hread := @readDecimal_append _ [] (by simp [hne]) hwhole (by simp)
    refine ⟨_, _, by simpa [readExponent] using hread, ?_⟩
    intro negative
    rw [hvalue, ofDecimal_mul_pow]
    congr 1
    omega
  | true =>
    have hread := @readDecimal_point _ ['0'] [] (by simp [hne]) hwhole (by simp) (by simp)
    refine ⟨_, _, by simpa [readExponent] using hread, ?_⟩
    intro negative
    have hmore : ofDigits (digits ++ (List.replicate (point.toNat - digits.length) '0' ++ ['0']))
        = ofDigits digits * 10 ^ (point.toNat - digits.length + 1) := by
      rw [← List.append_assoc, ofDigits_append, hvalue, Nat.pow_succ, ← Nat.mul_assoc]
      rfl
    rw [hmore, ofDecimal_mul_pow]
    congr 1
    omega

/-- The point stands among the digits. -/
theorem readsAs_among (hne : digits ≠ []) (hdigits : ∀ c ∈ digits, c.isDigit = true)
    (hlength : point.toNat < digits.length) (hpoint : ¬ point ≤ 0) :
    ReadsAs (digits.take point.toNat ++ List.replicate (point.toNat - digits.length) '0'
      ++ '.' :: digits.drop point.toNat) digits point := by
  have hnone : point.toNat - digits.length = 0 := by omega
  have htake : digits.take point.toNat ≠ [] := by
    rw [ne_eq, List.take_eq_nil_iff, not_or]
    exact ⟨by omega, hne⟩
  have hread := @readDecimal_point _ (digits.drop point.toNat) [] htake
    (fun c hc => hdigits c (List.mem_of_mem_take hc))
    (fun c hc => hdigits c (List.mem_of_mem_drop hc)) (by simp)
  rw [List.append_nil, List.take_append_drop, List.length_drop] at hread
  refine ⟨_, _, by simpa [readExponent, hnone] using hread, ?_⟩
  intro negative
  congr 1
  omega

/-- Digits with a point among them or around them read back. -/
theorem readsAs_positional (hne : digits ≠ []) (hdigits : ∀ c ∈ digits, c.isDigit = true)
    (point : Int) (keepsFraction : Bool) :
    ReadsAs (positional digits point keepsFraction) digits point := by
  simp only [positional]
  split
  · rename_i hpoint
    exact readsAs_leading hdigits hpoint
  rename_i hpoint
  split
  · rename_i hdrop
    have hlength : digits.length ≤ point.toNat := List.drop_eq_nil_iff.1 hdrop
    rw [List.take_of_length_le hlength]
    exact readsAs_trailing hne hdigits hlength hpoint keepsFraction
  · rename_i hdrop
    have hlength : point.toNat < digits.length := by
      rw [← not_le, ← List.drop_eq_nil_iff]
      exact hdrop
    exact readsAs_among hne hdigits hlength hpoint

end

/-! ## The round trip -/

/-- What a number without its sign is written as. -/
def bodyChars (style : NumberStyle) (x : Binary64) : List Char :=
  if x.magnitude == 0 then positional ['0'] 1 style.keepsFraction else x.writeDigits style

theorem write_eq (style : NumberStyle) {x : Binary64} (h : x.isFinite = true) :
    x.write style = if x.isNegative then '-' :: x.bodyChars style else x.bodyChars style := by
  have hnan : x.isNaN = false := by
    simp only [isNaN, isFinite, decide_eq_true_eq, decide_eq_false_iff_not] at h ⊢
    omega
  simp [write, bodyChars, h, hnan]

/-- What a finite number other than zero is written as: its digits, written in one of two forms. -/
theorem exists_writeDigits_eq (style : NumberStyle) {x : Binary64} (h : x.isFinite = true)
    (hne : x.magnitude ≠ 0) :
    ∃ digits point, digits ≠ [] ∧ (∀ c ∈ digits, c.isDigit = true)
      ∧ ofDecimal x.isNegative (ofDigits digits) (point - digits.length) = x
      ∧ x.writeDigits style = if style.needsExponent point then scientific digits point
          else positional digits point style.keepsFraction := by
  obtain ⟨k, hvalue, hpoint, hdigits⟩ :=
    exists_significantDigits x.shortestDecimal.1 x.shortestDecimal.2
  have hreads := ofDecimal_of_abs (ofDecimal_shortestDecimal h hne)
  refine ⟨(significantDigits x.shortestDecimal.1 x.shortestDecimal.2).1,
    (significantDigits x.shortestDecimal.1 x.shortestDecimal.2).2, ?_, hdigits, ?_, rfl⟩
  · intro hnil
    rw [hnil, show ofDigits [] = 0 from rfl, Nat.zero_mul] at hvalue
    rw [hvalue, ofDecimal, if_pos rfl] at hreads
    have hzero := congrArg Binary64.magnitude hreads
    rw [magnitude_ofMagnitude (by decide)] at hzero
    exact hne hzero.symm
  · rw [hpoint]
    calc ofDecimal x.isNegative (ofDigits _) _
      _ = ofDecimal x.isNegative (ofDigits _) (x.shortestDecimal.2 + k) := by
        congr 1
        omega
      _ = ofDecimal x.isNegative x.shortestDecimal.1 x.shortestDecimal.2 := by
        rw [← ofDecimal_mul_pow, ← hvalue]
      _ = x := hreads

theorem exists_readDecimal_bodyChars (style : NumberStyle) {x : Binary64} (h : x.isFinite = true) :
    ∃ n exponent, readDecimal (x.bodyChars style) = some (n, exponent)
      ∧ ofDecimal x.isNegative n exponent = x := by
  by_cases hzero : x.magnitude = 0
  · obtain ⟨n, exponent, hread, hvalue⟩ := @readsAs_positional ['0'] (by simp) (by simp) 1
      style.keepsFraction
    refine ⟨n, exponent, by simp [bodyChars, hzero, hread], ?_⟩
    have hsame := ofMagnitude_magnitude x
    rw [hzero] at hsame
    exact (hvalue _).trans hsame
  · obtain ⟨digits, point, hne, hdigits, hvalue, hwrite⟩ := exists_writeDigits_eq style h hzero
    have hbody : x.bodyChars style = x.writeDigits style := by simp [bodyChars, hzero]
    rw [hbody, hwrite]
    split
    · exact ⟨_, _, readDecimal_scientific hne hdigits point, hvalue⟩
    · obtain ⟨n, exponent, hread, hsame⟩ := readsAs_positional hne hdigits point
        style.keepsFraction
      exact ⟨n, exponent, hread, (hsame _).trans hvalue⟩

/-- A number without its sign starts with a digit. -/
theorem exists_cons_positional {digits : List Char} (hne : digits ≠ [])
    (hdigits : ∀ c ∈ digits, c.isDigit = true) (point : Int) (keepsFraction : Bool) :
    ∃ c cs, positional digits point keepsFraction = c :: cs ∧ c.isDigit = true := by
  obtain ⟨d, more, rfl⟩ := List.exists_cons_of_ne_nil hne
  have hd := hdigits d List.mem_cons_self
  simp only [positional]
  split
  · exact ⟨'0', _, rfl, rfl⟩
  · rename_i hpoint
    obtain ⟨n, hn⟩ : ∃ n, point.toNat = n + 1 := ⟨point.toNat - 1, by omega⟩
    rw [hn]
    split
    · exact ⟨d, _, by rw [List.take_succ_cons, List.cons_append, List.cons_append], hd⟩
    · exact ⟨d, _, by rw [List.take_succ_cons, List.cons_append, List.cons_append], hd⟩

theorem exists_cons_bodyChars (style : NumberStyle) {x : Binary64} (h : x.isFinite = true) :
    ∃ c cs, x.bodyChars style = c :: cs ∧ c.isDigit = true := by
  by_cases hzero : x.magnitude = 0
  · rw [bodyChars, if_pos (by simpa using hzero)]
    exact exists_cons_positional (by simp) (by simp) 1 _
  · rw [bodyChars, if_neg (by simpa using hzero)]
    obtain ⟨digits, point, hne, hdigits, -, hwrite⟩ := exists_writeDigits_eq style h hzero
    rw [hwrite]
    split
    · obtain ⟨d, more, rfl⟩ := List.exists_cons_of_ne_nil hne
      have hd := hdigits d List.mem_cons_self
      cases more with
      | nil => exact ⟨d, _, rfl, hd⟩
      | cons d' more => exact ⟨d, _, rfl, hd⟩
    · exact exists_cons_positional hne hdigits point _

theorem write_ne_nil (style : NumberStyle) (x : Binary64) : x.write style ≠ [] := by
  by_cases h : x.isFinite = true
  · obtain ⟨c, cs, hbody, -⟩ := exists_cons_bodyChars style h
    rw [write_eq style h, hbody]
    split <;> exact List.cons_ne_nil _ _
  · simp only [write, h]
    split
    · exact List.cons_ne_nil _ _
    · split <;> exact List.cons_ne_nil _ _

theorem splitSign_write (style : NumberStyle) {x : Binary64} (h : x.isFinite = true) :
    splitSign (x.write style) = (x.isNegative, x.bodyChars style) := by
  obtain ⟨c, cs, hbody, hc⟩ := exists_cons_bodyChars style h
  rw [write_eq style h]
  cases x.isNegative with
  | true => rfl
  | false =>
    rw [if_neg (by simp), hbody]
    exact splitSign_of_isDigit hc cs

/-- A finite number reads back as itself, in each style. -/
theorem ofText?_write (style : NumberStyle) {x : Binary64} (h : x.isFinite = true) :
    ofText? (x.write style) = some x := by
  obtain ⟨n, exponent, hread, hvalue⟩ := exists_readDecimal_bodyChars style h
  simp only [ofText?, splitSign_write style h, hread, hvalue]

/-! ## The characters of a number -/

/-- The characters that numbers are written in. -/
def isNumeric (c : Char) : Bool :=
  c.isDigit || c == '-' || c == '.' || c == 'e' || c == 'i' || c == 'n' || c == 'f' || c == 'N'
    || c == 'a'

theorem isNumeric_of_isDigit {c : Char} (h : c.isDigit = true) : isNumeric c = true := by
  simp [isNumeric, h]

theorem isNumeric_of_mem_writeSigned (i : Int) : ∀ c ∈ writeSigned i, isNumeric c = true := by
  have hdigits : ∀ c ∈ Nat.toDigits 10 i.natAbs, isNumeric c = true :=
    fun c hc => isNumeric_of_isDigit (isDigit_of_mem_toDigits c hc)
  simp only [writeSigned]
  split
  · exact List.forall_mem_cons.2 ⟨rfl, hdigits⟩
  · exact hdigits

theorem isNumeric_of_mem_positional {digits : List Char}
    (hdigits : ∀ c ∈ digits, isNumeric c = true) (point : Int) (keepsFraction : Bool) :
    ∀ c ∈ positional digits point keepsFraction, isNumeric c = true := by
  have hzeros : ∀ n, ∀ c ∈ List.replicate n '0', isNumeric c = true :=
    fun n c hc => (List.eq_of_mem_replicate hc) ▸ rfl
  have htake : ∀ c ∈ digits.take point.toNat, isNumeric c = true :=
    fun c hc => hdigits c (List.mem_of_mem_take hc)
  have hdrop : ∀ c ∈ digits.drop point.toNat, isNumeric c = true :=
    fun c hc => hdigits c (List.mem_of_mem_drop hc)
  simp only [positional]
  split
  · exact List.forall_mem_cons.2 ⟨rfl, List.forall_mem_cons.2
      ⟨rfl, List.forall_mem_append.2 ⟨hzeros _, hdigits⟩⟩⟩
  split
  · simp only [List.forall_mem_append]
    refine ⟨⟨htake, hzeros _⟩, ?_⟩
    cases keepsFraction <;> simp [isNumeric]
  · simp only [List.forall_mem_append, List.forall_mem_cons]
    exact ⟨⟨htake, hzeros _⟩, by decide, hdrop⟩

theorem isNumeric_of_mem_scientific {digits : List Char}
    (hdigits : ∀ c ∈ digits, isNumeric c = true) (point : Int) :
    ∀ c ∈ scientific digits point, isNumeric c = true := by
  have hpower : ∀ c ∈ 'e' :: writeSigned (point - 1), isNumeric c = true :=
    List.forall_mem_cons.2 ⟨rfl, isNumeric_of_mem_writeSigned _⟩
  cases digits with
  | nil => exact hpower
  | cons d more =>
    obtain ⟨hd, hmore⟩ := List.forall_mem_cons.1 hdigits
    cases more with
    | nil => exact List.forall_mem_cons.2 ⟨hd, hpower⟩
    | cons d' more =>
      have hpoint : isNumeric '.' = true := rfl
      exact List.forall_mem_append.2
        ⟨List.forall_mem_cons.2 ⟨hd, List.forall_mem_cons.2 ⟨hpoint, hmore⟩⟩, hpower⟩

/-- Whatever the number is, it is written in the characters of numbers. -/
theorem isNumeric_of_mem_write (style : NumberStyle) (x : Binary64) :
    ∀ c ∈ x.write style, isNumeric c = true := by
  have hwrite : ∀ c ∈ x.writeDigits style, isNumeric c = true := by
    obtain ⟨-, -, -, hdigits⟩ := exists_significantDigits x.shortestDecimal.1 x.shortestDecimal.2
    have hnumeric := fun c hc => isNumeric_of_isDigit (hdigits c hc)
    simp only [writeDigits]
    split
    · exact isNumeric_of_mem_scientific hnumeric _
    · exact isNumeric_of_mem_positional hnumeric _ _
  have hsign : ∀ body : List Char, (∀ c ∈ body, isNumeric c = true) →
      ∀ c ∈ if x.isNegative then '-' :: body else body, isNumeric c = true := by
    intro body hbody
    split
    · exact List.forall_mem_cons.2 ⟨rfl, hbody⟩
    · exact hbody
  rw [write]
  split
  · simp [isNumeric]
  apply hsign
  split
  · simp [isNumeric]
  split
  · exact isNumeric_of_mem_positional (by simp [isNumeric]) _ _
  · exact hwrite

/-- A number that is written as an argument shows that it is no integer. -/
theorem exists_nondigit_mem_bodyChars {x : Binary64} (h : x.isFinite = true) :
    ∃ c ∈ x.bodyChars argumentStyle, c.isDigit = false := by
  have hpositional : ∀ (digits : List Char) (point : Int),
      ∃ c ∈ positional digits point argumentStyle.keepsFraction, c.isDigit = false := by
    intro digits point
    refine ⟨'.', ?_, rfl⟩
    simp only [positional, argumentStyle]
    split
    · simp
    split <;> simp
  by_cases hzero : x.magnitude = 0
  · rw [bodyChars, if_pos (by simpa using hzero)]
    exact hpositional _ _
  · rw [bodyChars, if_neg (by simpa using hzero)]
    obtain ⟨digits, point, -, -, -, hwrite⟩ := exists_writeDigits_eq argumentStyle h hzero
    rw [hwrite]
    split
    · refine ⟨'e', ?_, rfl⟩
      match digits with
      | [] | [_] | _ :: _ :: _ => simp [scientific]
    · exact hpositional _ _

theorem readInteger_write {x : Binary64} (h : x.isFinite = true) :
    readInteger (x.write argumentStyle) = none := by
  obtain ⟨c, hmem, hc⟩ := exists_nondigit_mem_bodyChars h
  have hdigits : isDigits (x.bodyChars argumentStyle) = false := by
    rw [isDigits, Bool.and_eq_false_iff, List.all_eq_false]
    exact Or.inr ⟨c, hmem, by simp [hc]⟩
  simp [readInteger, splitSign_write argumentStyle h, hdigits]

end Binary64

end UriRouting
