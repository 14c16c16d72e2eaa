import SqlJson.Proofs.Binary.Separation
import SqlJson.Proofs.Decimal.Value

/-!
# Correct rounding

The number a decimal is rounded to is the one nearest to its exact value, ties going to the even one, as long as
that is finite; and it is finite below a bound that lies half a last bit above the greatest value.

* `Width.abs_sub_nearestIndex_le`: no other value is nearer to a fraction.
* `Binary.IsNearest`: the finite number nearest to a rational number.
* `Binary.IsNearest.of_small`: what is smaller than half the least value is rounded to zero.
* `Binary.isNearest_ofDecimal`: decimals are rounded correctly.
* `Binary.isFinite_ofDecimal_iff`: what is rounded to a finite number.
-/

namespace SqlJson

variable {w : Width} {a b c i j k m s : ℕ} {e : ℤ} {p q t : ℚ}

namespace Width

/-! ## Fractions -/

/-- A multiple at a distance of half a unit at most is the nearest one, but for a tie. -/
theorem abs_sub_multiple (ht : 0 < t) (h : |q - m * t| ≤ t / 2) (hne : k ≠ m) :
    |q - m * t| ≤ |q - k * t| ∧ (|q - m * t| = |q - k * t| → |q - m * t| = t / 2) := by
  -- the two multiples are a unit apart at least, so that one of them is half a unit away
  have hint : (1 : ℤ) ≤ |(k : ℤ) - m| := Int.one_le_abs (by omega)
  have hone : (1 : ℚ) ≤ |(k : ℚ) - m| := by exact_mod_cast hint
  have hapart : t ≤ |q - m * t| + |q - k * t| := by
    calc t = 1 * t := (one_mul t).symm
      _ ≤ |(k : ℚ) - m| * t := by gcongr
      _ = |(q - m * t) - (q - k * t)| := by
        rw [← abs_of_pos ht, ← abs_mul, abs_of_pos ht]
        congr 1
        ring
      _ ≤ _ := abs_sub _ _
  constructor
  · linarith
  · intro heq
    linarith

/-- The values of a format are multiples of the last bit of a scale, or below all values of that scale. -/
theorem exists_valueAt_eq (w : Width) (s j : ℕ) :
    (∃ k : ℕ, w.valueAt j = k * w.lastBit s) ∨ 0 < s ∧ w.valueAt j < w.binade * w.lastBit s := by
  obtain ⟨m, -, hv, hm, -⟩ := valueOf_bounds w j
  rw [valueAt, hv]
  rcases le_or_gt s (w.scaleOf j) with hle | hlt
  · left
    refine ⟨m * 2 ^ (w.scaleOf j - s), ?_⟩
    obtain ⟨k, hk⟩ := Nat.exists_eq_add_of_le hle
    rw [hk, Nat.add_sub_cancel_left, lastBit, mul_div_assoc', pow_add]
    push_cast
    ring
  · right
    refine ⟨by omega, ?_⟩
    rw [lastBit, mul_div_assoc']
    refine div_lt_div_of_pos_right ?_ (by positivity)
    have hnat : m * 2 ^ w.scaleOf j < w.binade * 2 ^ s := by
      calc m * 2 ^ w.scaleOf j < 2 * w.binade * 2 ^ w.scaleOf j := by gcongr
        _ = w.binade * 2 ^ (w.scaleOf j + 1) := by ring
        _ ≤ w.binade * 2 ^ s := by gcongr <;> omega
    exact_mod_cast hnat

/-- **No other value is nearer to a fraction** than the one it is rounded to, and if another one is as near,
the number is even. -/
theorem abs_sub_nearestIndex_le (hb : 0 < b) (a j : ℕ) :
    |(a / b : ℚ) - w.valueAt (w.nearestIndex a b)| ≤ |(a / b : ℚ) - w.valueAt j| ∧
      (w.valueAt j ≠ w.valueAt (w.nearestIndex a b) →
        |(a / b : ℚ) - w.valueAt (w.nearestIndex a b)| = |(a / b : ℚ) - w.valueAt j| →
        w.nearestIndex a b % 2 = 0) := by
  obtain ⟨s, m, hindex, hlow, hhigh, hfirst, hdist, htie⟩ := exists_nearestIndex_eq_add w a hb
  have ht := w.lastBit_pos s
  have heven : m % 2 = 0 → w.nearestIndex a b % 2 = 0 := by
    have hbinade : w.binade % 2 = 0 := by cases w <;> decide
    intro h
    rw [hindex, Nat.add_mod, Nat.mul_mod, hbinade, h, Nat.mul_zero]
  rw [show w.valueAt (w.nearestIndex a b) = m * w.lastBit s by rw [hindex, valueAt_add hlow hhigh]]
  generalize (a / b : ℚ) = q at *
  rcases exists_valueAt_eq w s j with ⟨k, hk⟩ | ⟨hs, hlt⟩
  · rw [hk]
    by_cases hkm : k = m
    · rw [hkm]
      exact ⟨le_rfl, fun hne => absurd rfl hne⟩
    · obtain ⟨hle, heq⟩ := abs_sub_multiple ht hdist hkm
      exact ⟨hle, fun _ h => heven (htie (heq h))⟩
  -- the fraction is on its scale, so that the first value there is nearer than all below it
  · have hq := hfirst hs
    have hnear : |q - m * w.lastBit s| ≤ q - w.binade * w.lastBit s := by
      by_cases hm : w.binade = m
      · rw [hm] at hq ⊢
        exact (abs_of_nonneg (sub_nonneg.2 hq)).le
      · have h := (abs_sub_multiple ht hdist hm).1
        rwa [abs_of_nonneg (sub_nonneg.2 hq)] at h
    have hstrict : |q - m * w.lastBit s| < |q - w.valueAt j| := by
      refine lt_of_le_of_lt hnear ?_
      rw [abs_of_pos (by linarith)]
      linarith
    exact ⟨hstrict.le, fun _ h => absurd h hstrict.ne⟩

/-! ## Overflow -/

/-- Half a last bit above the greatest value: from here on, numbers are infinite. -/
def overflow : Width → ℕ
  | .single => 2 ^ 128 - 2 ^ 103
  | .double => 2 ^ 1024 - 2 ^ 970

theorem indexOf_overflow (w : Width) : w.indexOf w.overflow 0 = w.indexCount := by
  cases w <;> decide +kernel

theorem overflow_eq (w : Width) : 2 * (w.overflow * 2 ^ w.unitBits) =
    2 * w.valueOf (w.indexCount - 1) + 2 ^ w.scaleOf (w.indexCount - 1) := by
  cases w <;> decide +kernel

/-- **What is rounded to a number of the format.** -/
theorem indexOf_lt_indexCount_iff : w.indexOf c e < w.indexCount ↔ (c * 10 ^ e : ℚ) < w.overflow := by
  constructor
  · intro h
    by_contra hge
    have hle : w.indexOf w.overflow 0 ≤ w.indexOf c e := indexOf_mono (by simpa using hge)
    rw [indexOf_overflow] at hle
    omega
  · intro h
    have hpos : 0 < w.indexCount := by cases w <;> decide
    -- up to the greatest value rounding is monotone, and above it less than half a bit changes nothing
    have hmax : w.indexOf c e ≤ w.indexCount - 1 := by
      rcases le_total (c * 10 ^ e : ℚ) (w.valueAt (w.indexCount - 1)) with hle | hge
      · exact indexOf_le hle
      · refine (indexOf_eq_of_lt hge (h.trans_le ?_)).le
        have heq : 2 * (w.overflow * 2 ^ w.unitBits : ℚ) =
            2 * w.valueOf (w.indexCount - 1) + 2 ^ w.scaleOf (w.indexCount - 1) := by
          exact_mod_cast w.overflow_eq
        rw [valueAt]
        field_simp
        linarith
    omega

end Width

namespace Binary

open Width

variable {d : Decimal} {x y : Binary w}

/-! ## Numbers with a sign -/

/-- **The exact value of a finite number.** -/
def value : Binary w → ℚ
  | finite true i => -w.valueAt i
  | finite false i => w.valueAt i
  | _ => 0

/-- Whether the sign bit of a number is set. -/
def isNegative : Binary w → Bool
  | finite negative _ => negative
  | infinity negative => negative
  | nan => false

/-- **The finite number nearest to a rational number**: no other one is nearer, and if another one is as near, it
is not even. A number rounded to zero keeps its sign. -/
structure IsNearest (x : Binary w) (q : ℚ) : Prop where
  isFinite : x.isFinite = true
  le : ∀ y : Binary w, y.isFinite = true → |q - x.value| ≤ |q - y.value|
  even : ∀ y : Binary w, y.isFinite = true → y.value ≠ x.value → |q - x.value| = |q - y.value| →
    x.magnitude % 2 = 0
  sign : x.isNegative = true ↔ q < 0

theorem abs_value (negative : Bool) (i : Fin w.indexCount) : |(finite negative i).value| = w.valueAt i := by
  have hpos : 0 ≤ w.valueAt i := by
    unfold valueAt
    positivity
  cases negative with
  | true => rw [value, abs_neg, abs_of_nonneg hpos]
  | false => rw [value, abs_of_nonneg hpos]

/-- The number nearest to an absolute value is nearest among the numbers of both signs. -/
theorem isNearest_finite {negative : Bool} {i : Fin w.indexCount} (hp : 0 < p)
    (hq : q = if negative then -p else p) (hle : ∀ j, |p - w.valueAt i| ≤ |p - w.valueAt j|)
    (heven : ∀ j, w.valueAt j ≠ w.valueAt i → |p - w.valueAt i| = |p - w.valueAt j| → i.val % 2 = 0) :
    (finite negative i).IsNearest q := by
  have hpq : p = |q| := by
    rw [hq]
    split_ifs
    · rw [abs_neg, abs_of_pos hp]
    · exact (abs_of_pos hp).symm
  have hself : |q - (finite negative i).value| = |p - w.valueAt i| := by
    rw [hq]
    cases negative with
    | true =>
      rw [if_pos rfl, value, neg_sub_neg]
      exact abs_sub_comm _ _
    | false => rw [if_neg Bool.false_ne_true, value]
  -- the other sign only adds to the distance
  have hother : ∀ (sign : Bool) (j : Fin w.indexCount), |p - w.valueAt j| ≤ |q - (finite sign j).value| := by
    intro sign j
    rw [hpq, ← abs_value sign j]
    exact abs_abs_sub_abs_le q _
  refine ⟨rfl, fun y hy => ?_, fun y hy hne heq => ?_, ?_⟩
  · cases y with
    | nan => cases hy
    | infinity => cases hy
    | finite sign j =>
      rw [hself]
      exact (hle j).trans (hother sign j)
  · cases y with
    | nan => cases hy
    | infinity => cases hy
    | finite sign j =>
      have htie : |p - w.valueAt i| = |p - w.valueAt j| := by
        refine le_antisymm (hle j) ((hother sign j).trans ?_)
        rw [← heq, hself]
      refine heven j (fun hij => hne ?_) htie
      -- numbers of opposite sign are equally far from zero alone
      rw [← abs_value sign, ← abs_value negative, abs_eq_abs] at hij
      rcases hij with hij | hij
      · exact hij
      · rw [hij] at heq ⊢
        rcases abs_eq_abs.1 heq with h | h
        · linarith
        · have hzero : q = 0 := by linarith
          rw [hzero, abs_zero] at hpq
          exact absurd hpq hp.ne'
  · rw [hq]
    cases negative with
    | true => exact iff_of_true rfl (by simpa using hp)
    | false => exact iff_of_false (by simp [isNegative]) (by simpa using hp.le)

/-! ## Zero -/

theorem value_zero (w : Width) : (zero : Binary w).value = 0 := by
  have hpos : 0 < w.indexCount := by cases w <;> decide
  have hzero : (zero : Binary w) = finite false ⟨0, hpos⟩ := dif_pos hpos
  rw [hzero, value, valueAt]
  cases w <;> simp [valueOf]

/-- Decimals without digits are rounded to zero, whose value they have. -/
theorem isNearest_zero (w : Width) : (zero : Binary w).IsNearest 0 := by
  have hpos : 0 < w.indexCount := by cases w <;> decide
  have hzero : (zero : Binary w) = finite false ⟨0, hpos⟩ := dif_pos hpos
  refine ⟨by rw [hzero]; rfl, fun y hy => ?_, fun y hy hne heq => ?_, ?_⟩
  · rw [value_zero, sub_zero, abs_zero]
    exact abs_nonneg _
  · rw [hzero]
    rfl
  · rw [hzero]
    exact iff_of_false (by simp [isNegative]) (lt_irrefl 0)

/-! ## Underflow -/

/-- A finite number is zero, or not smaller than the least value. -/
theorem value_eq_zero_or (hy : y.isFinite = true) : y.value = 0 ∨ w.lastBit 0 ≤ |y.value| := by
  cases y with
  | nan => cases hy
  | infinity => cases hy
  | finite negative i =>
    rcases exists_valueAt_eq w 0 i with ⟨k, hk⟩ | ⟨h0, -⟩
    · rcases Nat.eq_zero_or_pos k with rfl | hpos
      · left
        rw [← abs_eq_zero, abs_value, hk, Nat.cast_zero, zero_mul]
      · right
        rw [abs_value, hk]
        exact le_mul_of_one_le_left (w.lastBit_pos 0).le (by exact_mod_cast hpos)
    · exact absurd h0 (lt_irrefl 0)

/-- What is smaller than half the least value is rounded to zero. -/
theorem IsNearest.value_eq_zero (h : x.IsNearest q) (hq : 2 * |q| < w.lastBit 0) : x.value = 0 := by
  rcases value_eq_zero_or h.isFinite with hzero | hge
  · exact hzero
  -- zero would be nearer
  · have hnear := h.le zero (isNearest_zero w).isFinite
    rw [value_zero, sub_zero] at hnear
    have hapart := abs_sub_abs_le_abs_sub x.value q
    rw [abs_sub_comm] at hapart
    linarith

/-- **Numbers smaller than half the least value are rounded alike**, if they are on the same side of zero. -/
theorem IsNearest.of_small {r : ℚ} (h : x.IsNearest q) (hq : 2 * |q| < w.lastBit 0) (hr : 2 * |r| < w.lastBit 0)
    (hsign : q < 0 ↔ r < 0) : x.IsNearest r := by
  have hx := h.value_eq_zero hq
  have hfar : ∀ y : Binary w, y.isFinite = true → y.value = 0 ∨ |r| < |r - y.value| := by
    intro y hy
    refine (value_eq_zero_or hy).imp_right fun hge => ?_
    have hapart := abs_sub_abs_le_abs_sub y.value r
    rw [abs_sub_comm] at hapart
    linarith
  refine ⟨h.isFinite, fun y hy => ?_, fun y hy hne heq => ?_, h.sign.trans hsign⟩
  · rw [hx, sub_zero]
    rcases hfar y hy with hzero | hlt
    · rw [hzero, sub_zero]
    · exact hlt.le
  · rw [hx] at hne heq
    rw [sub_zero] at heq
    exact absurd heq ((hfar y hy).resolve_left hne).ne

/-! ## Decimals -/

/-- **Decimals are rounded correctly.** -/
theorem isNearest_ofDecimal (h : (ofDecimal w d).isFinite = true) : (ofDecimal w d).IsNearest d.value := by
  by_cases h0 : d.coefficient = 0
  · have hz : d.isZero = true := decide_eq_true h0
    have hvalue : d.value = 0 := by
      rw [d.value_eq_ite, h0]
      simp
    rw [ofDecimal, if_pos hz, hvalue]
    exact isNearest_zero w
  · rw [ofDecimal_eq h0] at h ⊢
    rw [ofIndex] at h ⊢
    split_ifs at h ⊢ with hindex
    · have hc : (0 : ℚ) < d.coefficient := by exact_mod_cast Nat.pos_of_ne_zero h0
      have hnearest := abs_sub_nearestIndex_le (w := w) (b := 10 ^ (-d.exponent).toNat) (by positivity)
        (d.coefficient * 10 ^ d.exponent.toNat)
      rw [cast_div_pow] at hnearest
      exact isNearest_finite (by positivity) d.value_eq_ite (fun j => (hnearest j).1) fun j => (hnearest j).2
    · cases h

/-- **What is rounded to a finite number.** -/
theorem isFinite_ofDecimal_iff : (ofDecimal w d).isFinite = true ↔ |d.value| < w.overflow := by
  rw [d.abs_value, ← indexOf_lt_indexCount_iff]
  by_cases h0 : d.coefficient = 0
  · have hz : d.isZero = true := decide_eq_true h0
    have hpos : 0 < w.indexCount := by cases w <;> decide
    rw [ofDecimal, if_pos hz, h0, indexOf_zero]
    exact iff_of_true (isNearest_zero w).isFinite hpos
  · rw [ofDecimal_eq h0, ofIndex]
    split_ifs with hindex
    · exact iff_of_true rfl hindex
    · exact iff_of_false Bool.false_ne_true hindex

end Binary

end SqlJson
