import SqlJson.Proofs.Binary.Shortest

/-!
# Decimals that are told apart

A number with all the bits of a significand is close to the decimals that are rounded to it, so that decimals
with few digits which are rounded to the same number are equal.

* `valueAt`: the value with a given number.
* `roundHalfEven_spec`: rounding goes half a unit at most.
* `exists_nearestIndex_eq_add`: the scale on which a fraction is rounded, and how far.
* `abs_sub_valueAt_le`: how far a decimal is from the value it is rounded to.
* `eq_of_indexOf_le`: decimals with few digits are told apart.
* `indexOf_eq_of_lt`: what is less than half a bit above a value is rounded to it.
-/

namespace SqlJson.Width

variable {w : Width} {a b c c' i m n s : ℕ} {e e' : ℤ}

/-- **The value with a given number.** -/
def valueAt (w : Width) (i : ℕ) : ℚ := w.valueOf i / 2 ^ w.unitBits

/-! ## Rounding -/

/-- Rounding goes half a unit at most, and as far as that to an even number only. -/
theorem roundHalfEven_spec (hb : 0 < b) (a : ℕ) :
    2 * a ≤ (2 * roundHalfEven a b + 1) * b ∧ 2 * roundHalfEven a b * b ≤ 2 * a + b ∧
      (2 * a = (2 * roundHalfEven a b + 1) * b ∨ 2 * roundHalfEven a b * b = 2 * a + b →
        roundHalfEven a b % 2 = 0) := by
  have hdiv := Nat.div_add_mod a b
  have hmod := Nat.mod_lt a hb
  obtain ⟨p, hp⟩ : ∃ p, b * (a / b) = p := ⟨_, rfl⟩
  unfold roundHalfEven
  split_ifs with h
  · have h₁ : (2 * (a / b + 1) + 1) * b = 2 * p + 3 * b := by rw [← hp]; ring
    have h₂ : 2 * (a / b + 1) * b = 2 * p + 2 * b := by rw [← hp]; ring
    omega
  · have h₁ : (2 * (a / b) + 1) * b = 2 * p + b := by rw [← hp]; ring
    have h₂ : 2 * (a / b) * b = 2 * p := by rw [← hp]; ring
    omega

theorem roundHalfEven_eq (hle : m * b ≤ a) (hlt : 2 * a < (2 * m + 1) * b) : roundHalfEven a b = m := by
  have hprod : (2 * m + 1) * b = 2 * (m * b) + b := by ring
  have hdiv : a / b = m := by
    refine Nat.div_eq_of_lt_le hle ?_
    rw [Nat.succ_mul]
    omega
  have hmod := Nat.div_add_mod a b
  rw [hdiv, Nat.mul_comm] at hmod
  unfold roundHalfEven
  rw [hdiv, if_neg (by omega)]

/-! ## Values by scale and significand -/

/-- **A value by its scale and its significand**, which has all bits unless the scale is the least one. The
next power of two may be written on the scale below. -/
theorem valueOf_add (hlow : 0 < s → w.binade ≤ m) (hhigh : m ≤ 2 * w.binade) :
    w.valueOf (s * w.binade + m) = m * 2 ^ s := by
  have hb := w.binade_pos
  rcases hhigh.lt_or_eq with hlt | rfl
  · have hscale : w.scaleOf (s * w.binade + m) = s := by
      have hdiv : (s * w.binade + m) / w.binade = s + m / w.binade := by
        rw [Nat.add_comm, Nat.add_mul_div_right _ _ hb, Nat.add_comm]
      have hm : m / w.binade < 2 := (Nat.div_lt_iff_lt_mul hb).2 hlt
      rw [scaleOf, hdiv]
      rcases Nat.eq_zero_or_pos s with rfl | hs
      · omega
      · have : 1 ≤ m / w.binade := (Nat.one_le_div_iff hb).2 (hlow hs)
        omega
    rw [valueOf, hscale, Nat.add_sub_cancel_left, Nat.pow_eq]
  · have hindex : s * w.binade + 2 * w.binade = (s + 1) * w.binade + w.binade := by ring
    have hscale : w.scaleOf ((s + 1) * w.binade + w.binade) = s + 1 := by
      rw [scaleOf, ← Nat.succ_mul, Nat.mul_div_cancel _ hb]
      rfl
    rw [hindex, valueOf, hscale, Nat.add_sub_cancel_left, Nat.pow_eq, pow_succ]
    ring

/-- The distance of neighbours on a scale. -/
def lastBit (w : Width) (s : ℕ) : ℚ := 2 ^ s / 2 ^ w.unitBits

theorem lastBit_pos (w : Width) (s : ℕ) : 0 < w.lastBit s := by
  unfold lastBit
  positivity

theorem valueAt_add (hlow : 0 < s → w.binade ≤ m) (hhigh : m ≤ 2 * w.binade) :
    w.valueAt (s * w.binade + m) = m * w.lastBit s := by
  rw [valueAt, valueOf_add hlow hhigh, lastBit, mul_div_assoc']
  push_cast
  rfl

/-- Rounding on a scale goes half the last bit at most, and as far as that to an even number only. -/
theorem abs_sub_roundHalfEven_le (w : Width) (a s : ℕ) (hb : 0 < b)
    (hm : roundHalfEven (a * 2 ^ w.unitBits) (b * 2 ^ s) = m) :
    |(a / b : ℚ) - m * w.lastBit s| ≤ w.lastBit s / 2 ∧
      (|(a / b : ℚ) - m * w.lastBit s| = w.lastBit s / 2 → m % 2 = 0) := by
  obtain ⟨hupper, hlower, htie⟩ := roundHalfEven_spec (b := b * 2 ^ s) (by positivity) (a * 2 ^ w.unitBits)
  rw [hm] at hupper hlower htie
  have hbq : (0 : ℚ) < b := by exact_mod_cast hb
  have ht : w.lastBit s = (b * 2 ^ s : ℕ) / (b * 2 ^ w.unitBits : ℚ) := by
    rw [lastBit]
    push_cast
    field_simp
  have hq : (a / b : ℚ) = (a * 2 ^ w.unitBits : ℕ) / (b * 2 ^ w.unitBits : ℚ) := by
    push_cast
    field_simp
  rw [ht, hq]
  generalize a * 2 ^ w.unitBits = x at *
  generalize b * 2 ^ s = y at *
  have hunit : (0 : ℚ) < b * 2 ^ w.unitBits := by positivity
  generalize (b * 2 ^ w.unitBits : ℚ) = u at *
  have hscale : |(x / u : ℚ) - m * (y / u)| = |(x : ℚ) - m * y| / u := by
    rw [← abs_of_pos hunit, ← abs_div, abs_of_pos hunit]
    congr 1
    ring
  rw [hscale, div_right_comm, div_le_div_iff_of_pos_right hunit, div_left_inj' hunit.ne']
  constructor
  · rw [abs_le]
    have h₁ : 2 * (x : ℚ) ≤ (2 * m + 1) * y := by exact_mod_cast hupper
    have h₂ : 2 * (m : ℚ) * y ≤ 2 * x + y := by exact_mod_cast hlower
    constructor <;> linarith
  · intro heq
    refine htie ?_
    rcases abs_eq_abs.1 (heq.trans (abs_of_nonneg (by positivity : (0 : ℚ) ≤ y / 2)).symm) with h | h
    · left
      have : 2 * (x : ℚ) = (2 * m + 1) * y := by linarith
      exact_mod_cast this
    · right
      have : 2 * (m : ℚ) * y = 2 * x + y := by linarith
      exact_mod_cast this

/-- The scale and the significand of the number nearest to a fraction, and how far it is from the fraction. -/
theorem exists_nearestIndex_eq_add (w : Width) (a : ℕ) (hb : 0 < b) :
    ∃ s m, w.nearestIndex a b = s * w.binade + m ∧ (0 < s → w.binade ≤ m) ∧ m ≤ 2 * w.binade ∧
      (0 < s → w.binade * w.lastBit s ≤ a / b) ∧ |(a / b : ℚ) - m * w.lastBit s| ≤ w.lastBit s / 2 ∧
      (|(a / b : ℚ) - m * w.lastBit s| = w.lastBit s / 2 → m % 2 = 0) := by
  have hle := nearestIndex_le (w := w) (a := a) hb
  have hge := le_nearestIndex (w := w) (a := a) hb
  rw [nearestIndex_eq] at hle hge
  refine ⟨_, _, nearestIndex_eq w a b, ?_, ?_, ?_, abs_sub_roundHalfEven_le w a _ hb rfl⟩
  · intro hs
    have h := hge hs
    rw [Nat.succ_mul] at h
    omega
  · rw [Nat.add_mul] at hle
    omega
  · intro hs
    have h := two_pow_scaleAt_le hs
    rw [Nat.le_div_iff_mul_le hb] at h
    rw [lastBit, mul_div_assoc', div_le_div_iff₀ (by positivity) (by exact_mod_cast hb)]
    exact_mod_cast h

/-- **How far a fraction is from the value it is rounded to**, if that has all bits of a significand: a half of
the last bit, which is a small part of the value. -/
theorem abs_sub_valueAt_le (hb : 0 < b) (h : w.binade ≤ w.nearestIndex a b) :
    |(a / b : ℚ) - w.valueAt (w.nearestIndex a b)| * (2 * w.binade) ≤ w.valueAt (w.nearestIndex a b) := by
  obtain ⟨s, m, hindex, hlow, hhigh, -, hdist, -⟩ := exists_nearestIndex_eq_add w a hb
  have hm : w.binade ≤ m := by
    rcases Nat.eq_zero_or_pos s with rfl | hs
    · omega
    · exact hlow hs
  have htpos := w.lastBit_pos s
  rw [hindex, valueAt_add hlow hhigh]
  calc |(a / b : ℚ) - m * w.lastBit s| * (2 * w.binade) ≤ w.lastBit s / 2 * (2 * w.binade) := by gcongr
    _ = w.binade * w.lastBit s := by ring
    _ ≤ m * w.lastBit s := by gcongr

/-! ## Decimals -/

/-- How far a decimal is from the value it is rounded to. -/
theorem abs_sub_valueAt_indexOf_le (h : w.binade ≤ w.indexOf c e) :
    |(c * 10 ^ e : ℚ) - w.valueAt (w.indexOf c e)| * (2 * w.binade) ≤ w.valueAt (w.indexOf c e) := by
  have hle := abs_sub_valueAt_le (w := w) (by positivity) h
  rw [cast_div_pow] at hle
  exact hle

/-- A decimal is at least as good as half the value it is rounded to. -/
theorem valueAt_indexOf_le (h : w.binade ≤ w.indexOf c e) : w.valueAt (w.indexOf c e) ≤ 2 * (c * 10 ^ e) := by
  have hle := abs_sub_valueAt_indexOf_le h
  have hb : (1 : ℚ) ≤ w.binade := by exact_mod_cast w.binade_pos
  have habs := abs_nonneg ((c * 10 ^ e : ℚ) - w.valueAt (w.indexOf c e))
  have hneg := neg_abs_le ((c * 10 ^ e : ℚ) - w.valueAt (w.indexOf c e))
  nlinarith

/-- **Decimals with few digits are told apart.** Of two decimals that are rounded to one number with all bits
of a significand, the one with more places has the other one's value if its digits are few. -/
theorem eq_of_indexOf_le (h : w.binade ≤ w.indexOf c e) (heq : w.indexOf c' e' = w.indexOf c e) (he : e ≤ e')
    (hc : 2 * c < w.binade) : (c : ℚ) * 10 ^ e = c' * 10 ^ e' := by
  have hle := abs_sub_valueAt_indexOf_le h
  have hle' := abs_sub_valueAt_indexOf_le (heq ▸ h)
  have hhalf := valueAt_indexOf_le h
  rw [heq] at hle'
  generalize w.valueAt (w.indexOf c e) = v at hle hle' hhalf
  -- both are multiples of `10 ^ e`, and less than that apart
  obtain ⟨k, rfl⟩ : ∃ k : ℕ, e' = e + k := ⟨(e' - e).toNat, by omega⟩
  have hscale : (c' : ℚ) * 10 ^ (e + k) = (c' * 10 ^ k : ℕ) * 10 ^ e := by
    rw [zpow_add₀ (by norm_num), zpow_natCast]
    push_cast
    ring
  rw [hscale] at hle' ⊢
  generalize c' * 10 ^ k = n at hle' ⊢
  have hpos : (0 : ℚ) < 10 ^ e := by positivity
  have hb : (0 : ℚ) < w.binade := by exact_mod_cast w.binade_pos
  have hc' : 2 * (c : ℚ) < w.binade := by exact_mod_cast hc
  have hdist : |(c : ℚ) - n| * 10 ^ e * (2 * w.binade) ≤ 2 * v := by
    have htri : |(c : ℚ) - n| * 10 ^ e ≤ |c * 10 ^ e - v| + |n * 10 ^ e - v| := by
      have habs : |(c : ℚ) - n| * 10 ^ e = |(c * 10 ^ e - v) - (n * 10 ^ e - v)| := by
        rw [← abs_of_pos hpos, ← abs_mul, abs_of_pos hpos]
        congr 1
        ring
      rw [habs]
      exact abs_sub _ _
    nlinarith
  have hlt : |(c : ℚ) - n| < 1 := by
    by_contra hge
    rw [not_lt] at hge
    have hmul : 1 * 10 ^ e * (2 * (w.binade : ℚ)) ≤ |(c : ℚ) - n| * 10 ^ e * (2 * w.binade) := by gcongr
    nlinarith
  have hint : |(c : ℤ) - n| < 1 := by exact_mod_cast hlt
  have hcn : (c : ℤ) = n := by
    rw [Int.abs_lt_one_iff] at hint
    omega
  rw [Int.natCast_inj.1 hcn]

/-! ## What is read back as a value -/

theorem nearestIndex_self (w : Width) (i : ℕ) : w.nearestIndex (w.valueOf i) (2 ^ w.unitBits) = i :=
  nearestIndex_valueOf (by positivity) rfl

/-- A decimal not above a value is not rounded to one above it. -/
theorem indexOf_le (h : (c * 10 ^ e : ℚ) ≤ w.valueAt i) : w.indexOf c e ≤ i := by
  conv_rhs => rw [← nearestIndex_self w i]
  refine nearestIndex_mono (by positivity) (by positivity) ?_
  rw [← cast_div_pow, valueAt, div_le_div_iff₀ (by positivity) (by positivity)] at h
  exact_mod_cast h

/-- A decimal not below a value is not rounded to one below it. -/
theorem le_indexOf (h : w.valueAt i ≤ (c * 10 ^ e : ℚ)) : i ≤ w.indexOf c e := by
  conv_lhs => rw [← nearestIndex_self w i]
  refine nearestIndex_mono (by positivity) (by positivity) ?_
  rw [← cast_div_pow, valueAt, div_le_div_iff₀ (by positivity) (by positivity)] at h
  exact_mod_cast h

/-- **What is less than half a bit above a value is rounded to it.** -/
theorem nearestIndex_eq_of_lt (hb : 0 < b) (hle : w.valueOf i * b ≤ a * 2 ^ w.unitBits)
    (hlt : 2 * (a * 2 ^ w.unitBits) < (2 * w.valueOf i + 2 ^ w.scaleOf i) * b) : w.nearestIndex a b = i := by
  obtain ⟨m, hi, hv, hm, hge⟩ := valueOf_bounds w i
  generalize w.scaleOf i = s at *
  rw [hv] at hle hlt
  have hpow := Nat.two_pow_pos s
  obtain ⟨n, hn⟩ : ∃ n, a * 2 ^ w.unitBits / b = n := ⟨_, rfl⟩
  have hnlow : m * 2 ^ s ≤ n := by
    rw [← hn, Nat.le_div_iff_mul_le hb]
    exact hle
  have hnhigh : n < 2 * w.binade * 2 ^ s := by
    rw [← hn, Nat.div_lt_iff_lt_mul hb]
    have hstep : (2 * (m * 2 ^ s) + 2 ^ s) * b ≤ 2 * (2 * w.binade * 2 ^ s * b) := by
      calc (2 * (m * 2 ^ s) + 2 ^ s) * b ≤ (2 * (m + 1)) * (2 ^ s * b) := by nlinarith
        _ ≤ (2 * (2 * w.binade)) * (2 ^ s * b) := by gcongr; exact hm
        _ = 2 * (2 * w.binade * 2 ^ s * b) := by ring
    omega
  have hscale : w.scaleAt n = s := by
    rcases Nat.eq_zero_or_pos s with rfl | hs
    · exact scaleAt_eq_zero (by simpa using hnhigh)
    · exact scaleAt_eq ((Nat.mul_le_mul_right _ (hge hs)).trans hnlow) hnhigh
  rw [nearestIndex_eq, hn, hscale, hi]
  congr 1
  refine roundHalfEven_eq ?_ ?_
  · calc m * (b * 2 ^ s) = m * 2 ^ s * b := by ring
      _ ≤ _ := hle
  · calc _ < (2 * (m * 2 ^ s) + 2 ^ s) * b := hlt
      _ = (2 * m + 1) * (b * 2 ^ s) := by ring

/-- The same for decimals: nothing is changed by half a bit. -/
theorem indexOf_eq_of_lt (hle : w.valueAt i ≤ (c * 10 ^ e : ℚ))
    (hlt : (c * 10 ^ e : ℚ) < w.valueAt i + 2 ^ w.scaleOf i / 2 ^ w.unitBits / 2) : w.indexOf c e = i := by
  have hunit : (0 : ℚ) < 2 ^ w.unitBits := by positivity
  have hden : (0 : ℚ) < ((10 ^ (-e).toNat : ℕ) : ℚ) := by positivity
  refine nearestIndex_eq_of_lt (by positivity) ?_ ?_
  · rw [← cast_div_pow, valueAt, div_le_div_iff₀ hunit hden] at hle
    exact_mod_cast hle
  · have hsum : w.valueAt i + 2 ^ w.scaleOf i / 2 ^ w.unitBits / 2 =
        (2 * w.valueOf i + 2 ^ w.scaleOf i) / (2 * 2 ^ w.unitBits) := by
      rw [valueAt]
      field_simp
    rw [← cast_div_pow, hsum, div_lt_div_iff₀ hden (by positivity)] at hlt
    have hnat : c * 10 ^ e.toNat * (2 * 2 ^ w.unitBits) <
        (2 * w.valueOf i + 2 ^ w.scaleOf i) * 10 ^ (-e).toNat := by exact_mod_cast hlt
    calc _ = c * 10 ^ e.toNat * (2 * 2 ^ w.unitBits) := by ring
      _ < _ := hnat

/-- A value is less than so many of its last bits. -/
theorem valueAt_lt (w : Width) (i : ℕ) :
    w.valueAt i < 2 * w.binade * (2 ^ w.scaleOf i / 2 ^ w.unitBits) := by
  obtain ⟨m, -, hv, hm, -⟩ := valueOf_bounds w i
  have hm' : (m : ℚ) < 2 * w.binade := by exact_mod_cast hm
  rw [valueAt, hv, ← mul_div_assoc]
  push_cast
  gcongr

end SqlJson.Width
