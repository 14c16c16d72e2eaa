import SqlJson.Proofs.Binary.Rounding

/-!
# Numbers met exactly

The values of a format are in the order of their numbers, so that a number is settled by its value and its sign.
A decimal whose value is that of a number is rounded to it.

* `Width.valueAt_strictMono`: the order of values.
* `Binary.value_of_toInt?`, `Binary.toInt?_of_value`: the numbers whose value is an integer.
* `Binary.abs_value_lt_iff`, `Binary.eq_of_value_eq`: numbers compared by their values.
* `Binary.ofDecimal_eq_of_value_eq`: what is met exactly is what a decimal is rounded to.
-/

namespace SqlJson

variable {w : Width}

namespace Width

/-- **Values are in the order of their numbers.** -/
theorem valueOf_strictMono (w : Width) : StrictMono w.valueOf := by
  intro i j hij
  by_contra hle
  have hunits : 0 < 2 ^ w.unitBits := by positivity
  have hback := nearestIndex_mono (w := w) hunits hunits (Nat.mul_le_mul_right _ (not_lt.1 hle))
  rw [nearestIndex_self, nearestIndex_self] at hback
  omega

theorem valueAt_strictMono (w : Width) : StrictMono w.valueAt := by
  intro i j hij
  have hlt : (w.valueOf i : ℚ) < w.valueOf j := by exact_mod_cast w.valueOf_strictMono hij
  rw [valueAt, valueAt]
  gcongr

theorem valueAt_nonneg (w : Width) (i : ℕ) : 0 ≤ w.valueAt i := by
  unfold valueAt
  positivity

/-- All values of a format are below the bound of overflow. -/
theorem valueAt_lt_overflow (i : Fin w.indexCount) : w.valueAt i < w.overflow := by
  have hle : w.valueAt i ≤ w.valueAt (w.indexCount - 1) := w.valueAt_strictMono.monotone (by omega)
  refine lt_of_le_of_lt hle ?_
  have heq : 2 * (w.overflow * 2 ^ w.unitBits : ℚ) =
      2 * w.valueOf (w.indexCount - 1) + 2 ^ w.scaleOf (w.indexCount - 1) := by
    exact_mod_cast w.overflow_eq
  have hpos : (0 : ℚ) < 2 ^ w.scaleOf (w.indexCount - 1) := by positivity
  rw [valueAt, div_lt_iff₀ (by positivity)]
  linarith

end Width

namespace Binary

open Width

variable {x y : Binary w} {z : ℤ} {d : Decimal}

/-- **Absolute values are in the order of their numbers.** -/
theorem abs_value_lt_iff (hx : x.isFinite = true) (hy : y.isFinite = true) :
    |x.value| < |y.value| ↔ x.magnitude < y.magnitude := by
  cases x with
  | nan => cases hx
  | infinity => cases hx
  | finite sign i =>
    cases y with
    | nan => cases hy
    | infinity => cases hy
    | finite sign' j =>
      rw [abs_value, abs_value, w.valueAt_strictMono.lt_iff_lt]
      rfl

theorem abs_value_lt_overflow (hx : x.isFinite = true) : |x.value| < w.overflow := by
  cases x with
  | nan => cases hx
  | infinity => cases hx
  | finite sign i =>
    rw [abs_value]
    exact valueAt_lt_overflow i

/-- **A number is settled by its value and its sign.** -/
theorem eq_of_value_eq (hx : x.isFinite = true) (hy : y.isFinite = true) (hsign : x.isNegative = y.isNegative)
    (h : x.value = y.value) : x = y := by
  cases x with
  | nan => cases hx
  | infinity => cases hx
  | finite sign i =>
    cases y with
    | nan => cases hy
    | infinity => cases hy
    | finite sign' j =>
      obtain rfl : sign = sign' := hsign
      have habs : w.valueAt i = w.valueAt j := by rw [← abs_value sign, ← abs_value sign, h]
      rw [Fin.ext (w.valueAt_strictMono.injective habs)]

/-- The value of a finite number as its absolute value with its sign. -/
theorem value_finite (negative : Bool) (i : Fin w.indexCount) :
    (finite negative i).value = if negative then -w.valueAt i else w.valueAt i := by
  cases negative <;> rfl

/-- **A number that is found to be an integer** has that value. -/
theorem value_of_toInt? (h : x.toInt? = some z) : x.isFinite = true ∧ x.value = z := by
  cases x with
  | nan => cases h
  | infinity => cases h
  | finite negative i =>
    have hunit : (2 : ℚ) ^ w.unitBits ≠ 0 := by positivity
    obtain ⟨hvalue, hsign⟩ := valueOf_toInt? h
    refine ⟨rfl, ?_⟩
    have habs : w.valueAt i = z.natAbs := by
      rw [valueAt, ← hvalue]
      push_cast
      field_simp
    rw [value_finite, habs, Nat.cast_natAbs]
    rcases lt_trichotomy z 0 with hz | rfl | hz
    · rw [hsign hz.ne, if_pos (decide_eq_true hz), abs_of_neg hz]
      simp
    · simp
    · rw [hsign hz.ne', if_neg (by simp [hz.le]), abs_of_pos hz]

/-- **A number whose value is an integer** is found to be that integer. -/
theorem toInt?_of_value (hx : x.isFinite = true) (h : x.value = z) : x.toInt? = some z := by
  cases x with
  | nan => cases hx
  | infinity => cases hx
  | finite negative i =>
    have hunit : (2 : ℚ) ^ w.unitBits ≠ 0 := by positivity
    have hnonneg := w.valueAt_nonneg i
    have habs : w.valueAt i = z.natAbs := by
      rw [Nat.cast_natAbs, Int.cast_abs, ← h, abs_value]
    have hvalue : w.valueOf i = z.natAbs * Nat.pow 2 w.unitBits := by
      rw [valueAt, div_eq_iff hunit] at habs
      exact_mod_cast habs
    have hpos : 0 < Nat.pow 2 w.unitBits := Nat.two_pow_pos _
    rw [toInt?, hvalue, Nat.mul_mod_left, Nat.mul_div_cancel _ hpos, if_pos rfl, Option.some.injEq]
    rw [value_finite] at h
    split_ifs at h ⊢ with hneg
    · have hz : (z : ℚ) ≤ 0 := by linarith
      have : z ≤ 0 := by exact_mod_cast hz
      omega
    · have hz : (0 : ℚ) ≤ z := by linarith
      have : 0 ≤ z := by exact_mod_cast hz
      omega

/-- **What is met exactly is what a decimal is rounded to.** -/
theorem ofDecimal_eq_of_value_eq (h : x.IsNearest d.value) (hvalue : x.value = d.value) : ofDecimal w d = x := by
  have hfinite : (ofDecimal w d).isFinite = true := by
    rw [isFinite_ofDecimal_iff, ← hvalue]
    exact abs_value_lt_overflow h.isFinite
  have hnearest := isNearest_ofDecimal hfinite
  have hle := hnearest.le x h.isFinite
  rw [hvalue, sub_self, abs_zero, abs_nonpos_iff, sub_eq_zero] at hle
  refine eq_of_value_eq hfinite h.isFinite ?_ (hle.symm.trans hvalue.symm)
  rw [Bool.eq_iff_iff, hnearest.sign, h.sign]

end Binary

end SqlJson
