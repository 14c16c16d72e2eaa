import Mathlib.Tactic
import SqlJson.Binary.Basic

/-!
# The nearest floating-point number

Rounding to the numbered values of a format respects the order of fractions, and gives back every
value that is met exactly. Both are all that the reading of decimals needs to know about rounding.

* `roundHalfEven_mono`, `nearestIndex_mono`: the larger the fraction, the larger its number.
* `nearestIndex_valueOf`: a fraction equal to a value gets the number of that value.
-/

namespace SqlJson.Width

variable {w : Width} {a a' b b' i n : ℕ}

/-! ## Rounding to a natural number -/

theorem roundHalfEven_le (a b : ℕ) : roundHalfEven a b ≤ a / b + 1 := by
  unfold roundHalfEven
  split_ifs <;> omega

theorem le_roundHalfEven (a b : ℕ) : a / b ≤ roundHalfEven a b := by
  unfold roundHalfEven
  split_ifs <;> omega

theorem roundHalfEven_mul (hb : 0 < b) (n : ℕ) : roundHalfEven (n * b) b = n := by
  unfold roundHalfEven
  rw [Nat.mul_mod_left, Nat.mul_div_cancel _ hb, if_neg (by omega)]

/-- **Rounding respects the order of fractions.** -/
theorem roundHalfEven_mono (hb : 0 < b) (hb' : 0 < b') (h : a * b' ≤ a' * b) :
    roundHalfEven a b ≤ roundHalfEven a' b' := by
  have ha := Nat.div_add_mod a b
  have ha' := Nat.div_add_mod a' b'
  have hq : a / b ≤ a' / b' := by
    rw [Nat.le_div_iff_mul_le hb']
    have hle : a / b * b ≤ a := Nat.div_mul_le_self a b
    refine Nat.le_of_mul_le_mul_right ?_ hb
    calc a / b * b' * b = a / b * b * b' := by ring
      _ ≤ a * b' := Nat.mul_le_mul_right _ hle
      _ ≤ a' * b := h
  rcases hq.lt_or_eq with hlt | heq
  · have h₁ := roundHalfEven_le a b
    have h₂ := le_roundHalfEven a' b'
    omega
  -- the whole parts agree, so the remainders are in the order of the fractions
  · have hrem : a % b * b' ≤ a' % b' * b := by
      have h₁ : a * b' = a / b * (b * b') + a % b * b' := by
        conv_lhs => rw [← ha]
        ring
      have h₂ : a' * b = a / b * (b * b') + a' % b' * b := by
        conv_lhs => rw [← ha', ← heq]
        ring
      omega
    unfold roundHalfEven
    rw [heq]
    -- if the smaller fraction is rounded up, so is the larger: a tie is broken alike for both
    by_cases hup : b < 2 * (a % b) ∨ (2 * (a % b) = b ∧ a' / b' % 2 = 1)
    · have hup' : b' < 2 * (a' % b') ∨ (2 * (a' % b') = b' ∧ a' / b' % 2 = 1) := by
        rcases hup with hgt | ⟨htie, hodd⟩
        · left
          refine Nat.lt_of_mul_lt_mul_right (a := b) ?_
          nlinarith
        · have hle : b' ≤ 2 * (a' % b') := Nat.le_of_mul_le_mul_right (by nlinarith) hb
          rcases hle.lt_or_eq with hlt | heq'
          · exact .inl hlt
          · exact .inr ⟨heq'.symm, hodd⟩
      rw [if_pos hup, if_pos hup']
    · rw [if_neg hup]
      split_ifs <;> omega

/-! ## The scale of a fraction -/

/-- One binade begins where the one before ends: the values of a binade have all the bits of a
significand but the first. -/
theorem two_mul_binade (w : Width) : 2 * w.binade = 2 ^ w.significandBits := by
  cases w <;> rfl

theorem binade_pos (w : Width) : 0 < w.binade := by
  cases w <;> decide

theorem significandBits_pos (w : Width) : 0 < w.significandBits := by
  cases w <;> decide

/-- The power of two, in units, between the neighbours of a fraction. -/
def scaleAt (w : Width) (n : ℕ) : ℕ := n.log2 + 1 - w.significandBits

theorem scaleAt_mono (h : n ≤ i) : w.scaleAt n ≤ w.scaleAt i := by
  have hlog : n.log2 ≤ i.log2 := by
    rcases Nat.eq_zero_or_pos n with rfl | hn
    · simp
    · exact (Nat.le_log2 (by omega)).2 ((Nat.log2_self_le (by omega)).trans h)
  unfold scaleAt
  omega

theorem lt_two_pow_scaleAt (w : Width) (n : ℕ) : n < 2 * w.binade * 2 ^ w.scaleAt n := by
  have h : n < 2 ^ (n.log2 + 1) := Nat.lt_log2_self
  rw [two_mul_binade, ← pow_add]
  refine h.trans_le (Nat.pow_le_pow_right (by norm_num) ?_)
  unfold scaleAt
  omega

theorem two_pow_scaleAt_le (h : 0 < w.scaleAt n) : w.binade * 2 ^ w.scaleAt n ≤ n := by
  have hn : n ≠ 0 := by
    rintro rfl
    have := w.significandBits_pos
    simp only [scaleAt, Nat.log2_zero] at h
    omega
  have hb : w.binade * 2 = 2 ^ w.significandBits := by rw [mul_comm, two_mul_binade]
  have hlog : n.log2 + 1 = w.significandBits + w.scaleAt n := by
    unfold scaleAt at h ⊢
    omega
  have hpow : w.binade * 2 ^ w.scaleAt n * 2 = 2 ^ n.log2 * 2 := by
    rw [← pow_succ, hlog, pow_add, ← hb]
    ring
  have := Nat.log2_self_le hn
  omega

theorem scaleAt_eq_zero (h : n < 2 * w.binade) : w.scaleAt n = 0 := by
  by_contra hne
  have hle := two_pow_scaleAt_le (Nat.pos_of_ne_zero hne)
  have hpow : 2 ^ 1 ≤ 2 ^ w.scaleAt n := Nat.pow_le_pow_right (by norm_num) (Nat.pos_of_ne_zero hne)
  have := Nat.mul_le_mul_left w.binade hpow
  omega

theorem scaleAt_eq {s : ℕ} (hle : w.binade * 2 ^ s ≤ n) (hlt : n < 2 * w.binade * 2 ^ s) :
    w.scaleAt n = s := by
  have hs := w.significandBits_pos
  have hb := w.two_mul_binade
  have hn : n ≠ 0 := by
    have := Nat.mul_pos w.binade_pos (Nat.two_pow_pos s)
    omega
  have h₁ : n.log2 < w.significandBits + s := by
    rw [Nat.log2_lt hn, pow_add, ← hb]
    exact hlt
  have h₂ : w.significandBits - 1 + s ≤ n.log2 := by
    have hpow : w.binade = 2 ^ (w.significandBits - 1) := rfl
    rw [Nat.le_log2 hn, pow_add, ← hpow]
    exact hle
  unfold scaleAt
  omega

/-! ## The number nearest to a fraction -/

theorem nearestIndex_eq (w : Width) (a b : ℕ) : w.nearestIndex a b =
    w.scaleAt (a * 2 ^ w.unitBits / b) * w.binade +
      roundHalfEven (a * 2 ^ w.unitBits) (b * 2 ^ w.scaleAt (a * 2 ^ w.unitBits / b)) := rfl

/-- The number of a fraction lies within the binade of its scale, or is the first of the next. -/
theorem nearestIndex_le (hb : 0 < b) :
    w.nearestIndex a b ≤ (w.scaleAt (a * 2 ^ w.unitBits / b) + 2) * w.binade := by
  have hlt := lt_two_pow_scaleAt w (a * 2 ^ w.unitBits / b)
  rw [nearestIndex_eq]
  set s := w.scaleAt (a * 2 ^ w.unitBits / b)
  have hpos : 0 < b * 2 ^ s := by positivity
  have hround : roundHalfEven (a * 2 ^ w.unitBits) (b * 2 ^ s) ≤ 2 * w.binade := by
    rw [← roundHalfEven_mul hpos (2 * w.binade)]
    refine roundHalfEven_mono hpos hpos (Nat.mul_le_mul_right _ ?_)
    have h := (Nat.div_lt_iff_lt_mul hb).1 hlt
    calc a * 2 ^ w.unitBits ≤ 2 * w.binade * 2 ^ s * b := h.le
      _ = 2 * w.binade * (b * 2 ^ s) := by ring
  calc _ ≤ s * w.binade + 2 * w.binade := Nat.add_le_add_left hround _
    _ = (s + 2) * w.binade := by ring

/-- Above the first binade the number of a fraction is not below the binade of its scale. -/
theorem le_nearestIndex (hb : 0 < b) (hs : 0 < w.scaleAt (a * 2 ^ w.unitBits / b)) :
    (w.scaleAt (a * 2 ^ w.unitBits / b) + 1) * w.binade ≤ w.nearestIndex a b := by
  have hle := two_pow_scaleAt_le hs
  rw [nearestIndex_eq]
  set s := w.scaleAt (a * 2 ^ w.unitBits / b)
  have hpos : 0 < b * 2 ^ s := by positivity
  have hround : w.binade ≤ roundHalfEven (a * 2 ^ w.unitBits) (b * 2 ^ s) := by
    conv_lhs => rw [← roundHalfEven_mul hpos w.binade]
    refine roundHalfEven_mono hpos hpos (Nat.mul_le_mul_right _ ?_)
    have h := (Nat.le_div_iff_mul_le hb).1 hle
    calc w.binade * (b * 2 ^ s) = w.binade * 2 ^ s * b := by ring
      _ ≤ a * 2 ^ w.unitBits := h
  calc (s + 1) * w.binade = s * w.binade + w.binade := by ring
    _ ≤ _ := Nat.add_le_add_left hround _

/-- **The larger the fraction, the larger its number.** -/
theorem nearestIndex_mono (hb : 0 < b) (hb' : 0 < b') (h : a * b' ≤ a' * b) :
    w.nearestIndex a b ≤ w.nearestIndex a' b' := by
  have hunits : a * 2 ^ w.unitBits * b' ≤ a' * 2 ^ w.unitBits * b := by
    calc a * 2 ^ w.unitBits * b' = a * b' * 2 ^ w.unitBits := by ring
      _ ≤ a' * b * 2 ^ w.unitBits := Nat.mul_le_mul_right _ h
      _ = a' * 2 ^ w.unitBits * b := by ring
  have hfloor : a * 2 ^ w.unitBits / b ≤ a' * 2 ^ w.unitBits / b' := by
    rw [Nat.le_div_iff_mul_le hb']
    have hle : a * 2 ^ w.unitBits / b * b ≤ a * 2 ^ w.unitBits := Nat.div_mul_le_self _ _
    refine Nat.le_of_mul_le_mul_right ?_ hb
    calc _ = a * 2 ^ w.unitBits / b * b * b' := by ring
      _ ≤ a * 2 ^ w.unitBits * b' := Nat.mul_le_mul_right _ hle
      _ ≤ _ := hunits
  have hscale : w.scaleAt (a * 2 ^ w.unitBits / b) ≤ w.scaleAt (a' * 2 ^ w.unitBits / b') :=
    scaleAt_mono hfloor
  -- fractions of different scales are apart by a whole binade of numbers
  rcases hscale.lt_or_eq with hlt | heq
  · have h₁ := nearestIndex_le (w := w) (a := a) hb
    have h₂ := le_nearestIndex (w := w) (a := a') hb' (by omega)
    have h₃ := Nat.mul_le_mul_right w.binade (Nat.succ_le_succ (Nat.succ_le_of_lt hlt))
    exact h₁.trans (h₃.trans h₂)
  -- fractions of one scale are rounded to multiples of the same power of two
  · rw [nearestIndex_eq, nearestIndex_eq, ← heq]
    refine Nat.add_le_add_left (roundHalfEven_mono (by positivity) (by positivity) ?_) _
    calc _ = a * 2 ^ w.unitBits * b' * 2 ^ w.scaleAt (a * 2 ^ w.unitBits / b) := by ring
      _ ≤ a' * 2 ^ w.unitBits * b * 2 ^ w.scaleAt (a * 2 ^ w.unitBits / b) :=
        Nat.mul_le_mul_right _ hunits
      _ = _ := by ring

theorem nearestIndex_zero (hb : 0 < b) : w.nearestIndex 0 b = 0 := by
  have hs : w.scaleAt 0 = 0 := scaleAt_eq_zero (by have := w.binade_pos; omega)
  have h := roundHalfEven_mul hb 0
  rw [Nat.zero_mul] at h
  rw [nearestIndex_eq, Nat.zero_mul, Nat.zero_div, hs, pow_zero, Nat.mul_one, h, Nat.zero_mul]

/-! ## Exact values -/

/-- A value lies in the binade of its scale. -/
theorem valueOf_bounds (w : Width) (i : ℕ) :
    ∃ m, i = w.scaleOf i * w.binade + m ∧ w.valueOf i = m * 2 ^ w.scaleOf i ∧
      m < 2 * w.binade ∧ (0 < w.scaleOf i → w.binade ≤ m) := by
  have hpos := w.binade_pos
  have hdiv := Nat.div_add_mod i w.binade
  have hmod := Nat.mod_lt i hpos
  rw [Nat.mul_comm] at hdiv
  refine ⟨i - w.scaleOf i * w.binade, ?_, rfl, ?_, ?_⟩
  · have : w.scaleOf i * w.binade ≤ i / w.binade * w.binade :=
      Nat.mul_le_mul_right _ (Nat.sub_le _ 1)
    omega
  · rcases Nat.eq_zero_or_pos (i / w.binade) with h0 | h0
    · rw [h0] at hdiv
      omega
    · have hs : i / w.binade = w.scaleOf i + 1 := by unfold scaleOf; omega
      rw [hs, Nat.succ_mul] at hdiv
      omega
  · intro hs
    have hs' : i / w.binade = w.scaleOf i + 1 := by unfold scaleOf at hs ⊢; omega
    rw [hs', Nat.succ_mul] at hdiv
    omega

theorem scaleAt_valueOf (w : Width) (i : ℕ) : w.scaleAt (w.valueOf i) = w.scaleOf i := by
  obtain ⟨m, -, hv, hlt, hge⟩ := valueOf_bounds w i
  rw [hv]
  rcases Nat.eq_zero_or_pos (w.scaleOf i) with h0 | h0
  · rw [h0, pow_zero, Nat.mul_one]
    exact scaleAt_eq_zero hlt
  · exact scaleAt_eq (Nat.mul_le_mul_right _ (hge h0))
      (Nat.mul_lt_mul_of_pos_right hlt (Nat.two_pow_pos _))

/-- **A value met exactly gets its own number.** -/
theorem nearestIndex_valueOf (hb : 0 < b) (h : a * 2 ^ w.unitBits = w.valueOf i * b) :
    w.nearestIndex a b = i := by
  obtain ⟨m, hi, hv, -, -⟩ := valueOf_bounds w i
  rw [nearestIndex_eq, h, Nat.mul_div_cancel _ hb, scaleAt_valueOf]
  have hround : roundHalfEven (w.valueOf i * b) (b * 2 ^ w.scaleOf i) = m := by
    have hpos : 0 < b * 2 ^ w.scaleOf i := by positivity
    have hval : w.valueOf i * b = m * (b * 2 ^ w.scaleOf i) := by rw [hv]; ring
    rw [hval, roundHalfEven_mul hpos]
  rw [hround]
  exact hi.symm

end SqlJson.Width
