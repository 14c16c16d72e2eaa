import SqlJson.Proofs.Decimal.Value

/-!
# Rounding half away from zero

A decimal is rounded to an integer by one of its digits, the first one behind the point. It has to be shown that this
digit stands where the count of digits says, that those behind it do not matter, and that the count does not stick to an
end of its range before the result is out of range anyway.

* `roundHalfAway`: the integer nearest to a rational number, halves going away from zero.
* `Decimal.splitAtPoint_spec`: the digit that decides.
* `Decimal.roundHalfAway?_eq`: decimals are rounded correctly, up to 38 digits.
-/

namespace SqlJson

/-- **Rounding half away from zero** to an integer. -/
def roundHalfAway (q : ℚ) : ℤ := SignType.sign q * ⌊|q| + 1 / 2⌋

theorem roundHalfAway_intCast (z : ℤ) : roundHalfAway z = z := by
  have hfloor : ⌊|(z : ℚ)| + 1 / 2⌋ = |z| := by
    rw [← Int.cast_abs, Int.floor_intCast_add, Int.floor_eq_zero_iff.2 ⟨by norm_num, by norm_num⟩, add_zero]
  have hsign : SignType.sign (z : ℚ) = SignType.sign z := by
    rcases lt_trichotomy z 0 with hz | rfl | hz
    · rw [sign_neg hz, sign_neg (Int.cast_lt_zero.2 hz)]
    · simp
    · rw [sign_pos hz, sign_pos (Int.cast_pos.2 hz)]
  rw [roundHalfAway, hfloor, hsign, sign_mul_abs]

/-- An absolute value is rounded, and keeps its sign. -/
theorem roundHalfAway_ite (negative : Bool) {p : ℚ} (hp : 0 < p) :
    roundHalfAway (if negative then -p else p) = if negative then -⌊p + 1 / 2⌋ else ⌊p + 1 / 2⌋ := by
  unfold roundHalfAway
  split_ifs
  · rw [abs_neg, abs_of_pos hp, sign_neg (neg_lt_zero.2 hp)]
    simp
  · rw [abs_of_pos hp, sign_pos hp]
    simp

/-- What is not below a natural number is not rounded below it. -/
theorem le_abs_roundHalfAway {q : ℚ} {m : ℕ} (h : m ≤ |q|) : (m : ℤ) ≤ |roundHalfAway q| := by
  have hfloor : (m : ℤ) ≤ ⌊|q| + 1 / 2⌋ := by
    rw [Int.le_floor]
    push_cast
    linarith
  unfold roundHalfAway
  rcases lt_trichotomy q 0 with hq | rfl | hq
  · rw [sign_neg hq, abs_mul]
    simpa using hfloor.trans (le_abs_self _)
  · simpa using h
  · rw [sign_pos hq, abs_mul]
    simpa using hfloor.trans (le_abs_self _)

namespace Decimal

variable {d : Decimal} {k n : ℕ}

theorem floor_half (c k : ℕ) : ⌊(c * 10 ^ (-(k : ℤ)) + 1 / 2 : ℚ)⌋ = ((2 * c + 10 ^ k) / (2 * 10 ^ k) : ℕ) := by
  have hquotient : (c * 10 ^ (-(k : ℤ)) + 1 / 2 : ℚ) = (2 * c + 10 ^ k : ℕ) / (2 * 10 ^ k : ℕ) := by
    rw [zpow_neg, zpow_natCast]
    push_cast
    field_simp
  rw [hquotient, Rat.floor_natCast_div_natCast, Int.natCast_div]

/-! ## The digit that decides -/

theorem coefficient_lt (h0 : d.coefficient ≠ 0) : d.coefficient < 10 ^ d.digits.length := by
  have h := (length_digits_add_le_iff (k := 0) h0 (length_digits_pos h0)).1 le_rfl
  rwa [pow_zero, mul_one] at h

/-- The digits are split at the point, which may stand before the first of them. -/
theorem splitAtPoint_eq (he : d.exponent = -(k : ℤ)) (hlen : d.digits.length = n + k) (hn : n ≤ 38) :
    d.splitAtPoint = (d.digits.take n, d.digits[n]?.getD '0') := by
  have hcount : d.integerDigits = n := by
    rw [integerDigits, he, hlen]
    unfold clampExponent minExponent maxExponent
    omega
  unfold splitAtPoint
  rw [hcount]
  cases n with
  | zero => rw [if_pos (by simp), if_pos (by simp), List.take_zero, List.head?_eq_getElem?]
  | succ n => rw [if_neg (by omega), Int.toNat_natCast]

/-- Below one tenth there is a zero behind the point. -/
theorem splitAtPoint_small (he : d.exponent = -(k : ℤ)) (hlen : d.digits.length < k) :
    d.splitAtPoint = ([], '0') := by
  have hcount : d.integerDigits < 0 := by
    rw [integerDigits, he]
    unfold clampExponent minExponent maxExponent
    omega
  unfold splitAtPoint
  rw [if_pos hcount.le, if_neg hcount.ne]

/-- Too many digits before the point are found to be too many, even if their count sticks to the end of its range. -/
theorem splitAtPoint_large (he : d.exponent = -(k : ℤ)) (hlen : 38 + k < d.digits.length) :
    maxIntegerDigits < d.splitAtPoint.1.length := by
  have hcount : 38 < d.integerDigits := by
    rw [integerDigits, he]
    unfold clampExponent minExponent maxExponent
    omega
  unfold splitAtPoint
  rw [if_neg (by omega)]
  dsimp only
  rw [List.length_take, maxIntegerDigits]
  omega

/-- **One digit decides how a decimal is rounded**, where there are no more than 38 before the point. -/
theorem splitAtPoint_spec (h0 : d.coefficient ≠ 0) (he : d.exponent = -((k + 1 : ℕ) : ℤ))
    (hlen : d.digits.length ≤ 38 + (k + 1)) : d.splitAtPoint.1.length ≤ maxIntegerDigits ∧
    (∀ c ∈ d.splitAtPoint.1, c.isDigit) ∧
    Nat.ofDigitChars 10 d.splitAtPoint.1 0 + (if '5' ≤ d.splitAtPoint.2 then 1 else 0) =
      (2 * d.coefficient + 10 ^ (k + 1)) / (2 * 10 ^ (k + 1)) := by
  have hdigit : ∀ c ∈ d.digits, c.isDigit := fun c => isDigit_of_mem_digits
  rcases Nat.lt_or_ge d.digits.length (k + 1) with hsmall | hge
  · rw [splitAtPoint_small he hsmall]
    refine ⟨Nat.zero_le _, List.forall_mem_nil _, ?_⟩
    have hlt := coefficient_lt h0
    have hpow : 10 ^ d.digits.length ≤ 10 ^ k := Nat.pow_le_pow_right (by norm_num) (by omega)
    rw [Nat.ofDigitChars_nil, if_neg (by decide), Nat.div_eq_of_lt]
    rw [pow_succ]
    omega
  · obtain ⟨n, hn⟩ := Nat.exists_eq_add_of_le' hge
    rw [splitAtPoint_eq he hn (by omega)]
    have hindex : n < d.digits.length := by omega
    have hsplit : d.digits = d.digits.take n ++ d.digits[n] :: d.digits.drop (n + 1) := by
      rw [List.getElem_cons_drop, List.take_append_drop]
    have htail : ∀ c ∈ d.digits.drop (n + 1), c.isDigit := fun c hc => hdigit c (List.mem_of_mem_drop hc)
    have hhalf := Text.ofDigitChars_half (d.digits.take n) (hdigit _ (List.getElem_mem hindex)) htail
    rw [← hsplit, ofDigitChars_digits, List.length_drop, show d.digits.length - (n + 1) = k by omega] at hhalf
    rw [List.getElem?_eq_getElem hindex, Option.getD_some]
    refine ⟨?_, fun c hc => hdigit c (List.mem_of_mem_take hc), hhalf.symm⟩
    rw [List.length_take, maxIntegerDigits]
    omega

/-! ## Rounding decimals -/

/-- **A decimal with digits behind the point is rounded**, if it has no more than 38 digits before it. These do not
overflow, even if one is added. -/
theorem roundHalfAway?_eq_ite (h0 : d.coefficient ≠ 0) (he : d.exponent = -((k + 1 : ℕ) : ℤ)) : d.roundHalfAway? =
    if d.coefficient < 10 ^ (38 + (k + 1)) then
      some (d.signed ((2 * d.coefficient + 10 ^ (k + 1)) / (2 * 10 ^ (k + 1)))) else none := by
  have hz : d.isZero = false := by simpa [isZero] using h0
  have hi : d.isInteger = false := by
    simp only [isInteger, hz, Bool.false_or, decide_eq_false_iff_not]
    omega
  have hlen := length_digits_add_le_iff (k := 0) (m := 38 + (k + 1)) h0 (by omega)
  rw [add_zero, pow_zero, mul_one] at hlen
  unfold roundHalfAway?
  rw [hi, if_neg Bool.false_ne_true]
  dsimp only
  by_cases hlt : d.coefficient < 10 ^ (38 + (k + 1))
  · obtain ⟨hfew, hdigit, hvalue⟩ := splitAtPoint_spec h0 he (hlen.2 hlt)
    have hwhole : Nat.ofDigitChars 10 d.splitAtPoint.1 0 < 10 ^ maxIntegerDigits :=
      Text.ofDigitChars_lt_pow hdigit hfew
    have hrange := le_maxInt128_of_le hwhole.le
    have hnext := le_maxInt128_of_le (Nat.succ_le_of_lt hwhole)
    rw [if_neg (not_lt.2 hfew), if_pos hlt, ← hvalue, accumulate?_eq _ (Nat.zero_le _), checked?_of_le hrange]
    rw [Option.bind_eq_bind, Option.bind_some]
    split_ifs
    · rw [checked?_of_le hnext]
      rfl
    · rfl
  · rw [if_pos (splitAtPoint_large he (by omega)), if_neg hlt]

/-- **Decimals are rounded half away from zero**, exactly, if they are below `10 ^ 38` in absolute value. -/
theorem roundHalfAway?_eq (hd : d.IsNormal) : d.roundHalfAway? =
    if |d.value| < 10 ^ 38 then some (SqlJson.roundHalfAway d.value) else none := by
  by_cases hint : d.isInteger = true
  · obtain ⟨z, hz⟩ := (isInteger_iff_value hd).1 hint
    have hrange : |d.value| < 10 ^ 38 ↔ z.natAbs < 10 ^ 38 := by
      rw [hz, ← Int.cast_abs, Int.abs_eq_natAbs, Int.cast_natCast]
      exact_mod_cast Iff.rfl
    rw [roundHalfAway?, if_pos hint, hz, roundHalfAway_intCast, ← hz]
    simp only [hrange]
    split_ifs with hlt
    · exact toInt?_of_value hd hz hlt
    · cases hfound : d.toInt? with
      | none => rfl
      | some y =>
        obtain rfl : y = z := by exact_mod_cast (value_of_toInt? hd hfound).symm.trans hz
        exact absurd (eq_ofInt_of_toInt? hd hfound).2 hlt
  · have hzero : d.isZero = false := by
      simp only [isInteger, Bool.or_eq_true, not_or, Bool.not_eq_true] at hint
      exact hint.1
    have h0 : d.coefficient ≠ 0 := isZero_iff.not.1 (by simp [hzero])
    obtain ⟨k, hk⟩ : ∃ k : ℕ, d.exponent = -((k + 1 : ℕ) : ℤ) := by
      simp only [isInteger, hzero, Bool.false_or, decide_eq_true_eq] at hint
      exact ⟨(-d.exponent).toNat - 1, by omega⟩
    have hunit : (0 : ℚ) < 10 ^ (k + 1) := by positivity
    have hpos : (0 : ℚ) < d.coefficient * 10 ^ (-((k + 1 : ℕ) : ℤ)) := by
      have hc : (0 : ℚ) < d.coefficient := by exact_mod_cast Nat.pos_of_ne_zero h0
      positivity
    have hrange : |d.value| < 10 ^ 38 ↔ d.coefficient < 10 ^ (38 + (k + 1)) := by
      rw [abs_value, hk, zpow_neg, zpow_natCast, ← div_eq_mul_inv, div_lt_iff₀ hunit, ← pow_add]
      exact_mod_cast Iff.rfl
    rw [roundHalfAway?_eq_ite h0 hk]
    simp only [hrange]
    split_ifs
    · rw [value_eq_ite, hk, roundHalfAway_ite d.negative hpos, floor_half, signed]
    · rfl

end Decimal

end SqlJson
