import SqlJson.Proofs.Binary.Digits

/-!
# Numbers in single precision as doubles

A number in single precision is written with nine digits at most, and a double tells all decimals of that
length apart. So the double nearest to its shortest decimal has the same shortest decimal.

* `coefficient_le_single`: nine digits are enough in single precision.
* `shortest?_ofDecimal`: decimals with few digits are their own shortest decimals.
* `shortest?_widened`: the shortest decimal of a number in single precision is that of a double.
-/

namespace SqlJson.Binary

open Width Decimal

variable {w : Width} {d : Decimal} {k : ℕ}

/-- **Decimals with few digits are their own shortest decimals.** -/
theorem shortest?_ofDecimal (hd : d.IsNormal) (hbits : w.binade ≤ w.indexOf d.coefficient d.exponent)
    (hfinite : w.indexOf d.coefficient d.exponent < w.indexCount) (hk : k < w.maxDigits)
    (hc : 2 * d.coefficient < 10 ^ (k + 1)) (hdigits : 2 * 10 ^ (k + 1) < w.binade) :
    (ofDecimal w d).shortest? = some d ∧ (ofDecimal w d).isZero = false := by
  have hpos : 0 < w.indexOf d.coefficient d.exponent := w.binade_pos.trans_le hbits
  have h0 : d.coefficient ≠ 0 := by
    intro h0
    rw [h0, indexOf_zero] at hpos
    exact hpos.false
  rw [ofDecimal_eq h0, ofIndex, dif_pos hfinite]
  constructor
  · rw [shortest?_finite hpos.ne', ofParts_of_value hd h0 (shortestParts_indexOf hbits hk hc hdigits)]
  · exact decide_eq_false hpos.ne'

/-! ## Single precision -/

variable {x : Binary .single}

/-- **Nine digits are enough in single precision.** -/
theorem coefficient_le_single (h : x.shortest? = some d) : d.coefficient ≤ 10 ^ 9 := by
  cases x with
  | nan => cases h
  | infinity => cases h
  | finite negative i =>
    by_cases hi : i.val = 0
    · rw [shortest?, if_pos hi] at h
      cases h
      decide
    · rw [shortest?_finite hi] at h
      cases h
      have hle : (shortestParts .single i).1 ≤ 10 ^ (8 + 1) :=
        shortestParts_le (Nat.pos_of_ne_zero hi) (by decide) (by decide)
      refine le_trans ?_ hle
      rcases eq_or_ne (shortestParts .single i).1 0 with h0 | h0
      · rw [h0, ofParts_zero]
        exact le_rfl
      · obtain ⟨m, j, hm, heq⟩ := exists_mul_pow h0
        rw [heq, ofParts_mul_pow hm]
        exact Nat.le_mul_of_pos_right m (by positivity)

/-- All bits of a significand are there at the least decimals of single precision. -/
theorem binade_le_indexOf : binade .double ≤ indexOf .double 1 (-158) := by
  decide +kernel

theorem indexOf_lt_indexCount : indexOf .double 1 60 < indexCount .double := by
  decide +kernel

/-- **The shortest decimal of a number in single precision** is that of a double. -/
theorem shortest?_widened (h : x.shortest? = some d) (hz : x.isZero = false) :
    (ofDecimal .double d).shortest? = some d ∧ (ofDecimal .double d).isZero = false := by
  obtain ⟨hread, hexponent⟩ := ofDecimal_shortest? h hz
  obtain ⟨h0, -, hdigits⟩ := digits_bounds hread hz (isFinite_of_shortest? h)
  have hcoefficient := coefficient_le_single h
  have hone : (1 : ℚ) ≤ d.coefficient := by exact_mod_cast Nat.pos_of_ne_zero h0
  refine shortest?_ofDecimal (k := 14) (shortest?_isNormal h) ?_ ?_ (by decide) (by omega) (by decide)
  · refine binade_le_indexOf.trans (indexOf_mono ?_)
    have hpow : (10 : ℚ) ^ (-158 : ℤ) ≤ 10 ^ d.exponent := zpow_le_zpow_right₀ (by norm_num) hexponent
    rw [Nat.cast_one]
    gcongr
  · refine lt_of_le_of_lt (indexOf_mono ?_) indexOf_lt_indexCount
    rw [digits_of_ne_zero h0] at hdigits
    rw [Nat.cast_one, one_mul]
    calc (d.coefficient : ℚ) * 10 ^ d.exponent
        ≤ 10 ^ ((Nat.toDigits 10 d.coefficient).length : ℤ) * 10 ^ d.exponent := by
          have := (pow_length_le h0).2.le
          gcongr
      _ = 10 ^ ((Nat.toDigits 10 d.coefficient).length + d.exponent : ℤ) := (zpow_add₀ (by norm_num) _ _).symm
      _ ≤ 10 ^ (60 : ℤ) := zpow_le_zpow_right₀ (by norm_num) hdigits

/-- The shortest decimal of a number in single precision is that of a double, of zero as well. -/
theorem exists_double_shortest? {x : Binary .single} (h : x.shortest? = some d) :
    ∃ y : Binary .double, y.shortest? = some d := by
  cases hz : x.isZero with
  | false => exact ⟨_, (shortest?_widened h hz).1⟩
  | true =>
    rw [shortest?_zero hz] at h
    cases h
    exact ⟨zero, rfl⟩

end SqlJson.Binary
