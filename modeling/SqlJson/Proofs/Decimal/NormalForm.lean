import SqlJson.Proofs.Text.Digits

/-!
# The normal form of decimals

A decimal in normal form is settled by its value: its coefficient is the value without factors of
ten.

* `ofParts_mul_pow`: factors of ten go from the coefficient to the exponent.
* `ofParts_isNormal`, `ofParts_of_isNormal`: normal forms, and only these, are kept.
* `ofParts_of_value`: parts with the value of a normal decimal have it as their normal form.
* `toInt?_eq_ite`, `toInt?_ofParts`: an integer of at most 38 digits is the value of its decimal.
* `eq_ofInt_of_toInt?`: a decimal with an integer value is the decimal of that integer.
-/

namespace SqlJson

theorem clampExponent_of_mem {e : ℤ} (h₁ : minExponent ≤ e) (h₂ : e ≤ maxExponent) :
    clampExponent e = e := by
  unfold clampExponent
  omega

theorem clampExponent_mem (e : ℤ) : minExponent ≤ clampExponent e ∧ clampExponent e ≤ maxExponent := by
  unfold clampExponent minExponent maxExponent
  omega

namespace Decimal

variable {negative : Bool} {c k n : ℕ} {e : ℤ} {d : Decimal}

theorem ne_zero_of_mod_ne (h : c % 10 ≠ 0) : c ≠ 0 := by
  rintro rfl
  exact h rfl

theorem stripZeros_of_mod_ne (h : c % 10 ≠ 0) : stripZeros c = (c, 0) := by
  rw [stripZeros, if_neg (by tauto)]

theorem stripZeros_mul_pow (h : c % 10 ≠ 0) (k : ℕ) : stripZeros (c * 10 ^ k) = (c, k) := by
  induction k with
  | zero => simpa using stripZeros_of_mod_ne h
  | succ k ih =>
    have hdiv : c * 10 ^ (k + 1) / 10 = c * 10 ^ k := by
      rw [pow_succ, ← mul_assoc, Nat.mul_div_cancel _ (by norm_num)]
    have hmod : c * 10 ^ (k + 1) % 10 = 0 := by
      rw [pow_succ, ← mul_assoc, Nat.mul_mod_left]
    have hne : c * 10 ^ (k + 1) ≠ 0 := by
      have := ne_zero_of_mod_ne h
      positivity
    rw [stripZeros, if_pos ⟨hne, hmod⟩, hdiv, ih]

/-- Every positive number is one without factors of ten times a power of ten. -/
theorem exists_mul_pow (h : n ≠ 0) : ∃ c k, c % 10 ≠ 0 ∧ n = c * 10 ^ k := by
  obtain ⟨k, c, hc, rfl⟩ := Nat.exists_eq_pow_mul_and_not_dvd h 10 (by norm_num)
  exact ⟨c, k, fun hm => hc (Nat.dvd_of_mod_eq_zero hm), Nat.mul_comm _ _⟩

/-- **Factors of ten move into the exponent.** -/
theorem ofParts_mul_pow (h : c % 10 ≠ 0) :
    ofParts negative (c * 10 ^ k) e = ⟨negative, c, clampExponent (e + k)⟩ := by
  have hne : c * 10 ^ k ≠ 0 := by
    have := ne_zero_of_mod_ne h
    positivity
  rw [ofParts, if_neg hne, stripZeros_mul_pow h]

theorem ofParts_zero : ofParts negative 0 e = zero := by
  rw [ofParts, if_pos rfl]

theorem ofParts_isNormal (negative : Bool) (n : ℕ) (e : ℤ) : (ofParts negative n e).IsNormal := by
  rcases eq_or_ne n 0 with rfl | hn
  · exact .inl ofParts_zero
  · obtain ⟨c, k, hc, rfl⟩ := exists_mul_pow hn
    rw [ofParts_mul_pow hc]
    exact .inr ⟨hc, clampExponent_mem _⟩

/-- **A normal decimal is the normal form of its parts.** -/
theorem ofParts_of_isNormal (hd : d.IsNormal) : ofParts d.negative d.coefficient d.exponent = d := by
  rcases hd with rfl | ⟨hc, h₁, h₂⟩
  · rfl
  · have h : ofParts d.negative (d.coefficient * 10 ^ 0) d.exponent = _ := ofParts_mul_pow hc
    rw [pow_zero, mul_one, Nat.cast_zero, add_zero, clampExponent_of_mem h₁ h₂] at h
    exact h

/-- The value of a normal decimal settles it: trailing zeros may stand in the coefficient or in
the exponent. -/
theorem ofParts_shift (hd : d.IsNormal) (h0 : d.coefficient ≠ 0) (k : ℕ) :
    ofParts d.negative (d.coefficient * 10 ^ k) (d.exponent - k) = d := by
  rcases hd with rfl | ⟨hc, h₁, h₂⟩
  · exact absurd rfl h0
  · rw [ofParts_mul_pow hc, sub_add_cancel, clampExponent_of_mem h₁ h₂]

/-- **Parts with the value of a normal decimal have it as their normal form.** -/
theorem ofParts_of_value (hd : d.IsNormal) (h0 : d.coefficient ≠ 0)
    (h : (c : ℚ) * 10 ^ e = d.coefficient * 10 ^ d.exponent) : ofParts d.negative c e = d := by
  rcases le_total e d.exponent with hle | hge
  · obtain ⟨k, hk⟩ : ∃ k : ℕ, e = d.exponent - k := ⟨(d.exponent - e).toNat, by omega⟩
    have hc : c = d.coefficient * 10 ^ k := by
      have hpow : (10 : ℚ) ^ d.exponent = 10 ^ k * 10 ^ e := by
        rw [← zpow_natCast, ← zpow_add₀ (by norm_num), hk]
        congr 1
        ring
      rw [hpow, ← mul_assoc] at h
      exact_mod_cast mul_right_cancel₀ (by positivity) h
    rw [hc, hk]
    exact ofParts_shift hd h0 k
  -- the coefficient has no factors of ten to give
  · obtain ⟨k, hk⟩ : ∃ k : ℕ, e = d.exponent + k := ⟨(e - d.exponent).toNat, by omega⟩
    have hc : c * 10 ^ k = d.coefficient := by
      rw [hk, zpow_add₀ (by norm_num), zpow_natCast, mul_comm (10 ^ d.exponent), ← mul_assoc] at h
      exact_mod_cast mul_right_cancel₀ (by positivity) h
    cases k with
    | zero =>
      rw [pow_zero, mul_one] at hc
      rw [hc, hk, Nat.cast_zero, add_zero]
      exact ofParts_of_isNormal hd
    | succ k =>
      rcases hd with rfl | ⟨hmod, -⟩
      · exact absurd rfl h0
      · rw [← hc, pow_succ, ← mul_assoc, Nat.mul_mod_left] at hmod
        exact absurd rfl hmod

/-- A normal decimal without digits is zero itself. -/
theorem IsNormal.eq_zero (hd : d.IsNormal) (h0 : d.coefficient = 0) : d = zero := by
  rcases hd with rfl | ⟨hc, -, -⟩
  · rfl
  · exact absurd h0 (ne_zero_of_mod_ne hc)

/-! ## Digits -/

theorem digits_of_ne_zero (h : d.coefficient ≠ 0) : d.digits = Nat.toDigits 10 d.coefficient := by
  rw [digits, if_neg h]

theorem isDigit_of_mem_digits {x : Char} (h : x ∈ d.digits) : x.isDigit := by
  unfold digits at h
  split_ifs at h with h0
  · cases h
  · exact Nat.isDigit_of_mem_toDigits (by norm_num) (by norm_num) h

theorem length_digits_pos (h : d.coefficient ≠ 0) : 0 < d.digits.length := by
  rw [digits_of_ne_zero h]
  exact Nat.length_toDigits_pos

theorem ofDigitChars_digits : Nat.ofDigitChars 10 d.digits 0 = d.coefficient := by
  unfold digits
  split_ifs with h0
  · exact h0.symm
  · exact Nat.ofDigitChars_ten_toDigits

/-- How many digits stand before the point tells the order of magnitude. -/
theorem length_digits_add_le_iff (h : d.coefficient ≠ 0) {m : ℕ} (hm : 0 < m) :
    d.digits.length + k ≤ m ↔ d.coefficient * 10 ^ k < 10 ^ m := by
  rw [digits_of_ne_zero h]
  have hpos : 0 < (Nat.toDigits 10 d.coefficient).length := Nat.length_toDigits_pos
  rcases Nat.lt_or_ge k m with hk | hk
  · obtain ⟨j, rfl⟩ : ∃ j, m = k + (j + 1) := ⟨m - k - 1, by omega⟩
    have hlen : (Nat.toDigits 10 d.coefficient).length ≤ j + 1 ↔ d.coefficient < 10 ^ (j + 1) :=
      Nat.length_toDigits_le_iff (by norm_num) (by omega)
    have hpow : (10 : ℕ) ^ (k + (j + 1)) = 10 ^ (j + 1) * 10 ^ k := by rw [add_comm, pow_add]
    rw [hpow, Nat.mul_lt_mul_right (by positivity), ← hlen]
    omega
  · have hle : (10 : ℕ) ^ m ≤ 10 ^ k := Nat.pow_le_pow_right (by norm_num) hk
    have hone : 1 * 10 ^ k ≤ d.coefficient * 10 ^ k := Nat.mul_le_mul_right _ (by omega)
    constructor
    · intro _; omega
    · intro _; omega

/-! ## Integers -/

theorem isZero_iff : d.isZero ↔ d.coefficient = 0 := by simp [isZero]

/-- The guard on the digits before the point tells the order of magnitude, since exponents do not stick where it
matters. -/
theorem maxIntegerDigits_lt_iff (h0 : d.coefficient ≠ 0) (he : d.exponent = k) :
    (maxIntegerDigits : ℤ) < d.integerDigits ↔ 10 ^ 38 ≤ d.coefficient * 10 ^ k := by
  have hlen := length_digits_add_le_iff (k := k) h0 (show 0 < 38 by norm_num)
  rw [← not_lt, ← hlen, integerDigits, he, maxIntegerDigits, clampExponent]
  unfold minExponent maxExponent
  omega

/-- **The integer value of a decimal** with digits and a point behind them: it is found if it has at most 38 digits,
which do not overflow. -/
theorem toInt?_eq_ite (h0 : d.coefficient ≠ 0) (he : d.exponent = k) : d.toInt? =
    if d.coefficient * 10 ^ k < 10 ^ 38 then some (d.signed (d.coefficient * 10 ^ k)) else none := by
  have hz : d.isZero = false := by simpa [isZero] using h0
  have hi : d.isInteger = true := by simp [isInteger, he]
  have hk : d.exponent.toNat = k := by rw [he, Int.toNat_natCast]
  unfold toInt?
  simp only [hz, hi, hk, maxIntegerDigits_lt_iff h0 he, Bool.not_true, Bool.false_eq_true, if_false]
  split_ifs with hle hlt hlt
  · omega
  · rfl
  · have hone : d.coefficient * 1 ≤ d.coefficient * 10 ^ k :=
      Nat.mul_le_mul_left _ (Nat.one_le_pow _ _ (by norm_num))
    have hrange : d.coefficient * 10 ^ k ≤ maxInt128 := le_maxInt128_of_le hlt.le
    rw [accumulate?_eq d.digits (Nat.zero_le _), ofDigitChars_digits, checked?_of_le (by omega)]
    simp only [Option.bind_eq_bind, Option.bind_some, scale?_eq k (show d.coefficient ≤ maxInt128 by omega),
      checked?_of_le hrange]
    rfl
  · omega

/-- The integer value of a decimal of no more than 38 digits. -/
theorem toInt?_of_lt (h0 : d.coefficient ≠ 0) (he : d.exponent = k)
    (hlt : d.coefficient * 10 ^ k < 10 ^ 38) : d.toInt? = some (d.signed (d.coefficient * 10 ^ k)) := by
  rw [toInt?_eq_ite h0 he, if_pos hlt]

theorem isInteger_of_toInt? {z : ℤ} (h : d.toInt? = some z) : d.isInteger = true := by
  by_contra hint
  rw [toInt?, if_pos (by simpa using hint)] at h
  cases h

/-- **The integer with a given sign and absolute value** is the value of its decimal. -/
theorem toInt?_ofParts (hn : n < 10 ^ 38) :
    (ofParts negative n 0).toInt? = some (if negative then -(n : ℤ) else n) := by
  rcases eq_or_ne n 0 with rfl | h0
  · rw [ofParts_zero]
    cases negative <;> rfl
  · obtain ⟨c, k, hc, rfl⟩ := exists_mul_pow h0
    have hk : (k : ℤ) ≤ 38 := by
      by_contra hk
      have hle : (10 : ℕ) ^ 38 ≤ 10 ^ k := Nat.pow_le_pow_right (by norm_num) (by omega)
      have hone : 1 * 10 ^ k ≤ c * 10 ^ k := Nat.mul_le_mul_right _ (by omega)
      omega
    have hclamp : clampExponent (0 + (k : ℤ)) = k := by
      rw [zero_add]
      apply clampExponent_of_mem
      · unfold minExponent; omega
      · unfold maxExponent; omega
    rw [ofParts_mul_pow hc, hclamp, toInt?_of_lt (ne_zero_of_mod_ne hc) rfl hn]
    rfl

theorem toInt?_ofInt {z : ℤ} (h : z.natAbs < 10 ^ 38) : (ofInt z).toInt? = some z := by
  rw [ofInt, toInt?_ofParts h]
  simp only [decide_eq_true_eq]
  split_ifs <;> congr 1 <;> omega

/-- **A decimal with an integer value is that integer's decimal**, and the integer has at most 38
digits. -/
theorem eq_ofInt_of_toInt? (hd : d.IsNormal) {z : ℤ} (h : d.toInt? = some z) :
    d = ofInt z ∧ z.natAbs < 10 ^ 38 := by
  rcases hd with rfl | ⟨hc, h₁, h₂⟩
  · cases h
    exact ⟨rfl, by norm_num⟩
  · have h0 := ne_zero_of_mod_ne hc
    obtain ⟨k, hk⟩ : ∃ k : ℕ, d.exponent = k := by
      have hinteger := isInteger_of_toInt? h
      simp only [isInteger, isZero, h0, decide_false, Bool.false_or, decide_eq_true_eq] at hinteger
      exact Int.eq_ofNat_of_zero_le hinteger
    rw [toInt?_eq_ite h0 hk, Option.ite_none_right_eq_some] at h
    obtain ⟨hlt, ⟨⟩⟩ := h
    have hm : 0 < d.coefficient * 10 ^ k := by positivity
    have habs : (d.signed (d.coefficient * 10 ^ k)).natAbs = d.coefficient * 10 ^ k := by
      unfold signed
      split_ifs <;> omega
    have hneg : decide (d.signed (d.coefficient * 10 ^ k) < 0) = d.negative := by
      unfold signed
      cases d.negative <;> simp
      omega
    have hshift := ofParts_shift (.inr ⟨hc, h₁, h₂⟩) h0 k
    rw [hk, sub_self] at hshift
    refine ⟨?_, by rw [habs]; exact hlt⟩
    rw [ofInt, habs, hneg]
    exact hshift.symm

end Decimal

end SqlJson
