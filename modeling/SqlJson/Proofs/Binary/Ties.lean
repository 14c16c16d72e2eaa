import SqlJson.Proofs.Binary.Exactness

/-!
# Rounding twice

A decimal that is rounded to a double may be rounded to single precision by way of another decimal of that double.
The two roundings part only where the double lies halfway between two singles: everything halfway between singles
is a double itself, so that no other one separates the two decimals.

* `Width.midpoint`: halfway between two neighbours.
* `Width.exists_valueAt_midpoint`: what is halfway between singles is a double.
* `Binary.IsTie`: the numbers halfway between neighbours.
* `Binary.ofDecimal_single_eq`: two decimals of one double are rounded to the same single.
-/

namespace SqlJson

variable {w : Width} {c c' i j n s : ℕ} {e e' : ℤ}

namespace Width

/-- **Halfway between two neighbours.** Behind the greatest value this is the bound of overflow. -/
def midpoint (w : Width) (i : ℕ) : ℚ := (w.valueAt i + w.valueAt (i + 1)) / 2

/-- What is rounded down is not above the midpoint. -/
theorem le_midpoint (h : w.indexOf c e ≤ i) : (c * 10 ^ e : ℚ) ≤ w.midpoint i := by
  by_contra hlt
  rw [not_le, midpoint] at hlt
  have hi := w.valueAt_strictMono (Nat.lt_succ_self i)
  have hindex := w.valueAt_strictMono.monotone h
  have hnear := (abs_sub_nearestIndex_le (w := w) (b := 10 ^ (-e).toNat) (by positivity) (c * 10 ^ e.toNat) (i + 1)).1
  rw [cast_div_pow, ← indexOf, abs_of_nonneg (by linarith), le_abs] at hnear
  rcases hnear with hnear | hnear <;> linarith

/-- What is rounded up is not below the midpoint. -/
theorem midpoint_le (h : i < w.indexOf c e) : w.midpoint i ≤ (c * 10 ^ e : ℚ) := by
  by_contra hlt
  rw [not_le, midpoint] at hlt
  have hi := w.valueAt_strictMono (Nat.lt_succ_self i)
  have hindex := w.valueAt_strictMono.monotone (Nat.succ_le_of_lt h)
  have hnear := (abs_sub_nearestIndex_le (w := w) (b := 10 ^ (-e).toNat) (by positivity) (c * 10 ^ e.toNat) i).1
  rw [cast_div_pow, ← indexOf, abs_of_nonpos (by linarith), le_abs] at hnear
  rcases hnear with hnear | hnear <;> linarith

/-- A significand on a scale is a value, also if it has fewer bits than the format. -/
theorem exists_valueOf_eq (hn : n ≤ 2 * w.binade) (s : ℕ) : ∃ k, w.valueOf k = n * 2 ^ s := by
  induction s generalizing n with
  | zero => exact ⟨0 * w.binade + n, valueOf_add (fun h => absurd h (lt_irrefl 0)) hn⟩
  | succ s ih =>
    rcases le_or_gt w.binade n with hge | hlt
    · exact ⟨(s + 1) * w.binade + n, valueOf_add (fun _ => hge) hn⟩
    · obtain ⟨k, hk⟩ := ih (n := 2 * n) (by omega)
      exact ⟨k, by rw [hk, pow_succ]; ring⟩

/-- **What is halfway between singles is a double.** -/
theorem exists_valueAt_midpoint (i : ℕ) : ∃ k, valueAt .double k = midpoint .single i := by
  obtain ⟨m, hi, hv, hm, hlow⟩ := valueOf_bounds .single i
  have hnext : valueOf .single (i + 1) = (m + 1) * 2 ^ scaleOf .single i := by
    rw [show i + 1 = scaleOf .single i * binade .single + (m + 1) by omega]
    exact valueOf_add (fun hs => (hlow hs).trans (Nat.le_succ m)) (by omega)
  -- one bit more is enough, and the last bits of doubles are smaller than that
  have hbinade : 2 * (2 * binade .single) < binade .double := by decide
  obtain ⟨t, ht⟩ : ∃ t, unitBits .double = t + unitBits .single + 1 := ⟨924, rfl⟩
  obtain ⟨k, hk⟩ := exists_valueOf_eq (w := .double) (n := 2 * m + 1) (by omega) (scaleOf .single i + t)
  refine ⟨k, ?_⟩
  rw [midpoint, valueAt, valueAt, valueAt, hk, hv, hnext, ht, pow_succ, pow_add, pow_add]
  push_cast
  field_simp
  ring

/-- **Two decimals of one double are rounded to the same single**, if the first one is equal to the double, and the
double is not halfway between singles. -/
theorem indexOf_single_eq (hj : indexOf .double c e = j) (hj' : indexOf .double c' e' = j)
    (hvalue : valueAt .double j = c * 10 ^ e)
    (htie : ∀ i < indexCount .single, (c * 10 ^ e : ℚ) ≠ midpoint .single i) :
    indexOf .single c e = indexOf .single c' e' ∨
      indexCount .single ≤ indexOf .single c e ∧ indexCount .single ≤ indexOf .single c' e' := by
  -- a midpoint between the two decimals is a double between them, and that is the first one
  have hseparate {i k : ℕ} (hk : valueAt .double k = midpoint .single i) (hkj : k = j) :
      ¬i < indexCount .single := by
    intro hi
    refine htie i hi ?_
    rw [← hvalue, ← hk, hkj]
  rcases lt_trichotomy (indexOf .single c e) (indexOf .single c' e') with hlt | heq | hgt
  · obtain ⟨k, hk⟩ := exists_valueAt_midpoint (indexOf .single c e)
    have h₁ := indexOf_le (w := .double) (hk ▸ le_midpoint le_rfl : (c * 10 ^ e : ℚ) ≤ valueAt .double k)
    have h₂ := le_indexOf (w := .double) (hk ▸ midpoint_le hlt : valueAt .double k ≤ (c' * 10 ^ e' : ℚ))
    have h := hseparate hk (by omega)
    exact .inr ⟨by omega, by omega⟩
  · exact .inl heq
  · obtain ⟨k, hk⟩ := exists_valueAt_midpoint (indexOf .single c' e')
    have h₁ := indexOf_le (w := .double) (hk ▸ le_midpoint le_rfl : (c' * 10 ^ e' : ℚ) ≤ valueAt .double k)
    have h₂ := le_indexOf (w := .double) (hk ▸ midpoint_le hgt : valueAt .double k ≤ (c * 10 ^ e : ℚ))
    have h := hseparate hk (by omega)
    exact .inr ⟨by omega, by omega⟩

end Width

namespace Binary

open Width

variable {q : ℚ} {d d' : Decimal} {x : Binary .double}

/-- **The numbers halfway between neighbours** of a format, the greatest value and the bound of overflow among them. -/
def IsTie (w : Width) (q : ℚ) : Prop := ∃ i < w.indexCount, |q| = w.midpoint i

/-- **Rounding by way of a double.** A decimal that is equal to a double is rounded to the same single as every decimal
that is rounded to this double, if it is not halfway between singles. -/
theorem ofDecimal_single_eq (h : ofDecimal .double d = x) (h' : ofDecimal .double d' = x) (hfinite : x.isFinite = true)
    (hzero : x.isZero = false) (hvalue : x.value = d.value) (htie : ¬IsTie .single d.value) :
    ofDecimal .single d' = ofDecimal .single d := by
  have h0 := (digits_bounds h hzero hfinite).1
  have h0' := (digits_bounds h' hzero hfinite).1
  rw [ofDecimal_eq h0] at h ⊢
  rw [ofDecimal_eq h0'] at h' ⊢
  cases x with
  | nan => cases hfinite
  | infinity => cases hfinite
  | finite negative j =>
    rw [ofIndex] at h h'
    split_ifs at h h' with hj hj'
    simp only [finite.injEq] at h h'
    obtain ⟨hsign, hindex⟩ := h
    obtain ⟨hsign', hindex'⟩ := h'
    have habs : valueAt .double j = d.coefficient * 10 ^ d.exponent := by
      rw [← abs_value negative, hvalue, d.abs_value]
    have hties : ∀ i < indexCount .single, (d.coefficient * 10 ^ d.exponent : ℚ) ≠ midpoint .single i := by
      intro i hi heq
      exact htie ⟨i, hi, by rw [d.abs_value, heq]⟩
    have hval : indexOf .double d.coefficient d.exponent = j := by rw [← hindex]
    have hval' : indexOf .double d'.coefficient d'.exponent = j := by rw [← hindex']
    rw [hsign, hsign']
    rcases indexOf_single_eq hval hval' habs hties with heq | ⟨hinf, hinf'⟩
    · rw [heq]
    · rw [ofIndex, ofIndex, dif_neg (not_lt.2 hinf), dif_neg (not_lt.2 hinf')]

end Binary

end SqlJson
