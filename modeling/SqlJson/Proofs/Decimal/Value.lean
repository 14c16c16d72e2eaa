import SqlJson.Proofs.Decimal.NormalForm

/-!
# The value of a decimal

* `value`: the exact value of a decimal, as a rational number.
* `value_ofParts`, `value_ofInt`: the value of parts, and of an integer.
* `ofParts_of_value_nat`, `ofParts_eq_ofInt`: parts whose value is an integer.
* `eq_of_value_eq`: a normal decimal is settled by its value.
* `isInteger_iff_value`: a normal decimal shows by its exponent whether its value is an integer.
* `value_of_toInt?`, `toInt?_of_value`: integers of at most 38 digits are found by their value.
-/

namespace SqlJson.Decimal

variable {d : Decimal} {m : ℕ} {n : ℤ}

/-- **The exact value of a decimal.** -/
def value (d : Decimal) : ℚ := d.signed d.coefficient * 10 ^ d.exponent

theorem value_eq_ite (d : Decimal) :
    d.value = if d.negative then -(d.coefficient * 10 ^ d.exponent : ℚ) else d.coefficient * 10 ^ d.exponent := by
  unfold value signed
  split_ifs
  · push_cast
    ring
  · push_cast
    rfl

theorem abs_value (d : Decimal) : |d.value| = d.coefficient * 10 ^ d.exponent := by
  have hpos : (0 : ℚ) ≤ d.coefficient * 10 ^ d.exponent := by positivity
  rw [value_eq_ite]
  split_ifs
  · rw [abs_neg, abs_of_nonneg hpos]
  · exact abs_of_nonneg hpos

theorem natAbs_signed (d : Decimal) (magnitude : ℕ) : (d.signed magnitude).natAbs = magnitude := by
  unfold signed
  split_ifs <;> omega

/-- **The normal form has the value of the parts**, if neither the exponent nor the one that takes up the factors of
ten is out of range. -/
theorem value_ofParts {negative : Bool} {c : ℕ} {e : ℤ} (hmin : minExponent ≤ e)
    (hmax : e + (stripZeros c).2 ≤ maxExponent) : (ofParts negative c e).value =
      if negative then -(c * 10 ^ e : ℚ) else c * 10 ^ e := by
  rcases eq_or_ne c 0 with rfl | hc
  · cases negative <;> simp [ofParts_zero, value, signed, zero]
  obtain ⟨c, k, hmod, rfl⟩ := exists_mul_pow hc
  rw [stripZeros_mul_pow hmod] at hmax
  have hvalue : (c * 10 ^ (e + k) : ℚ) = (c * 10 ^ k : ℕ) * 10 ^ e := by
    rw [zpow_add₀ (by norm_num), zpow_natCast]
    push_cast
    ring
  rw [ofParts_mul_pow hmod, clampExponent_of_mem (by omega) hmax, value_eq_ite, hvalue]

/-- A number with so many digits has no more factors of ten. -/
theorem stripZeros_le {c : ℕ} (h : c < 10 ^ m) : (stripZeros c).2 ≤ m := by
  rcases eq_or_ne c 0 with rfl | hc
  · simp [stripZeros]
  obtain ⟨c, k, hmod, rfl⟩ := exists_mul_pow hc
  rw [stripZeros_mul_pow hmod]
  refine ((Nat.pow_lt_pow_iff_right (by norm_num : 1 < 10)).1 (lt_of_le_of_lt ?_ h)).le
  exact Nat.le_mul_of_pos_left _ (Nat.pos_of_ne_zero (ne_zero_of_mod_ne hmod))

/-- **The decimal of an integer has its value**, if it has no more digits than an exponent can take. -/
theorem value_ofInt (h : n.natAbs < 10 ^ m) (hm : m ≤ maxExponent) : (ofInt n).value = n := by
  have hzeros := stripZeros_le h
  rw [ofInt, value_ofParts (by decide) (by omega), zpow_zero, mul_one, Nat.cast_natAbs]
  simp only [decide_eq_true_eq]
  split_ifs with hneg
  · rw [abs_of_neg hneg]
    simp
  · rw [abs_of_nonneg (not_lt.1 hneg)]

/-- The sign of a decimal with digits is that of its value. -/
theorem negative_iff_value (h0 : d.coefficient ≠ 0) : d.negative = true ↔ d.value < 0 := by
  have hc : (0 : ℚ) < d.coefficient := by exact_mod_cast Nat.pos_of_ne_zero h0
  have hpos : (0 : ℚ) < d.coefficient * 10 ^ d.exponent := by positivity
  rw [value_eq_ite]
  split_ifs with hneg
  · exact iff_of_true hneg (neg_lt_zero.2 hpos)
  · exact iff_of_false hneg hpos.not_gt

/-- The decimal of an integer by its absolute value and its sign. -/
theorem ofParts_eq_ofInt (negative : Bool) (m : ℕ) :
    ofParts negative m 0 = ofInt (if negative then -(m : ℤ) else m) := by
  rcases Nat.eq_zero_or_pos m with rfl | hm
  · cases negative <;> rw [ofParts_zero] <;> rfl
  · cases negative with
    | false =>
      have hneg : decide ((m : ℤ) < 0) = false := decide_eq_false (by omega)
      simp only [ofInt, Bool.false_eq_true, if_false, hneg, Int.natAbs_natCast]
    | true =>
      have hneg : decide (-(m : ℤ) < 0) = true := decide_eq_true (by omega)
      simp only [ofInt, if_true, hneg, Int.natAbs_neg, Int.natAbs_natCast]

/-- **Parts whose value is an integer** have the normal form of that integer. -/
theorem ofParts_of_value_nat {negative : Bool} {c s : ℕ} {e : ℤ} (h : (c * 10 ^ e : ℚ) = s) (h0 : s ≠ 0)
    (hlt : s < 10 ^ m) (hm : m ≤ maxExponent) : ofParts negative c e = ofParts negative s 0 := by
  obtain ⟨a, k, hmod, rfl⟩ := exists_mul_pow h0
  have hk := stripZeros_le hlt
  have hmin : minExponent ≤ 0 := by decide
  rw [stripZeros_mul_pow hmod] at hk
  rw [ofParts_mul_pow hmod, zero_add, clampExponent_of_mem (by omega) (by omega)]
  refine ofParts_of_value (d := ⟨negative, a, k⟩) (.inr ⟨hmod, by dsimp only; omega, by dsimp only; omega⟩)
    (ne_zero_of_mod_ne hmod) ?_
  rw [h]
  push_cast
  rw [zpow_natCast]

/-- **A normal decimal is settled by its value.** -/
theorem eq_of_value_eq {d' : Decimal} (hd : d.IsNormal) (hd' : d'.IsNormal) (h : d.value = d'.value) : d = d' := by
  have habs : (d'.coefficient : ℚ) * 10 ^ d'.exponent = d.coefficient * 10 ^ d.exponent := by
    rw [← abs_value, ← abs_value, h]
  by_cases h0 : d.coefficient = 0
  · have h0' : d'.coefficient = 0 := by
      rw [h0, Nat.cast_zero, zero_mul] at habs
      have hpow : (10 : ℚ) ^ d'.exponent ≠ 0 := by positivity
      exact_mod_cast (mul_eq_zero.1 habs).resolve_right hpow
    rw [hd.eq_zero h0, hd'.eq_zero h0']
  have h0' : d'.coefficient ≠ 0 := by
    intro h0'
    have hpow : (10 : ℚ) ^ d.exponent ≠ 0 := by positivity
    rw [h0', Nat.cast_zero, zero_mul, eq_comm, mul_eq_zero] at habs
    exact h0 (by exact_mod_cast habs.resolve_right hpow)
  have hsign : d.negative = d'.negative := by
    rw [Bool.eq_iff_iff, negative_iff_value h0, negative_iff_value h0', h]
  rw [← ofParts_of_value hd h0 habs, hsign, ofParts_of_isNormal hd']

/-- **A normal decimal is an integer if its value is one.** No factor of ten is left in its coefficient, so that
digits behind the point are part of the value. -/
theorem isInteger_iff_value (hd : d.IsNormal) : d.isInteger = true ↔ ∃ z : ℤ, d.value = z := by
  rcases hd with rfl | ⟨hc, -, -⟩
  · have hvalue : value zero = ((0 : ℤ) : ℚ) := by simp [value, signed, zero]
    exact iff_of_true rfl ⟨0, hvalue⟩
  have hz : d.isZero = false := by simpa [isZero] using ne_zero_of_mod_ne hc
  have hinteger : d.isInteger = true ↔ 0 ≤ d.exponent := by simp [isInteger, hz]
  rw [hinteger]
  constructor
  · intro he
    obtain ⟨k, hk⟩ := Int.eq_ofNat_of_zero_le he
    refine ⟨d.signed d.coefficient * 10 ^ k, ?_⟩
    rw [value, hk]
    push_cast
    rfl
  · rintro ⟨z, hvalue⟩
    by_contra he
    obtain ⟨k, hk⟩ : ∃ k : ℕ, d.exponent = -(k + 1 : ℕ) := ⟨(-d.exponent).toNat - 1, by omega⟩
    rw [value, hk, zpow_neg, zpow_natCast, ← div_eq_mul_inv, div_eq_iff (by positivity)] at hvalue
    -- the coefficient would be a multiple of ten
    have hcoefficient : d.signed d.coefficient = z * 10 ^ k * 10 := by
      rw [mul_assoc, ← pow_succ]
      exact_mod_cast hvalue
    have habs := d.natAbs_signed d.coefficient
    rw [hcoefficient, Int.natAbs_mul] at habs
    have hdvd : 10 ∣ d.coefficient := ⟨(z * 10 ^ k).natAbs, habs.symm.trans (mul_comm _ _)⟩
    omega

/-! ## Integers of at most 38 digits -/

/-- The integer that is found is the value. -/
theorem value_of_toInt? (hd : d.IsNormal) (h : d.toInt? = some n) : d.value = n := by
  obtain ⟨rfl, hlt⟩ := eq_ofInt_of_toInt? hd h
  exact value_ofInt hlt (by decide)

theorem signed_mul (d : Decimal) (a b : ℕ) : d.signed (a * b) = d.signed a * b := by
  unfold signed
  split_ifs <;> push_cast <;> ring

/-- **A decimal whose value is an integer of at most 38 digits** is found to be that integer. -/
theorem toInt?_of_value (hd : d.IsNormal) (h : d.value = n) (hn : n.natAbs < 10 ^ 38) : d.toInt? = some n := by
  have hinteger := (isInteger_iff_value hd).2 ⟨n, h⟩
  rcases hd with rfl | ⟨hc, -, -⟩
  · have hzero : (n : ℚ) = 0 := by simp [← h, value, signed, zero]
    rw [Int.cast_eq_zero.1 hzero]
    rfl
  have h0 := ne_zero_of_mod_ne hc
  have hz : d.isZero = false := by simpa [isZero] using h0
  have hexponent : 0 ≤ d.exponent := by simpa [isInteger, hz] using hinteger
  obtain ⟨k, hk⟩ := Int.eq_ofNat_of_zero_le hexponent
  have hsigned : d.signed (d.coefficient * 10 ^ k) = n := by
    rw [value, hk, zpow_natCast] at h
    rw [signed_mul]
    exact_mod_cast h
  have hlt : d.coefficient * 10 ^ k < 10 ^ 38 := by
    rw [← natAbs_signed d (d.coefficient * 10 ^ k), hsigned]
    exact hn
  rw [toInt?_of_lt h0 hk hlt, hsigned]

end SqlJson.Decimal
