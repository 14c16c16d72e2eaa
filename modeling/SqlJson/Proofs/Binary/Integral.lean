import SqlJson.Proofs.Binary.Digits
import SqlJson.Proofs.Binary.Exactness

/-!
# Shortest decimals of integers

A number whose value is an integer has an integer as its shortest decimal: the search ends where the places behind the
point begin, if not before. Up to `2 ^ 54` it is the same integer. From there on the last bit of a double is worth four
and more, and the search may end on a multiple of ten that is not the value.

* `Width.onGrid?_of_valueAt`: a value that is on a grid is what is found there.
* `Width.exists_shortestParts_eq_nat`: what is found for an integer is an integer.
* `Width.shortestParts_eq_of_le`: up to `2 ^ 54` it is the value.
* `Binary.isInteger_of_shortest?`, `Binary.exists_shortest?_eq_ofInt`: the same with the sign.
-/

namespace SqlJson

variable {w : Width} {c i k n : ℕ} {e : ℤ}

namespace Width

/-! ## Values on a grid -/

/-- **A value that is on a grid** is what is found there. -/
theorem onGrid?_of_valueAt (h : w.valueAt i = c * 10 ^ e) :
    w.onGrid? i (w.valueOf i) (2 ^ w.unitBits) e = some c := by
  have hmul : w.valueOf i * 10 ^ (-e).toNat = c * (2 ^ w.unitBits * 10 ^ e.toNat) := by
    rw [valueAt, ← cast_div_pow, div_eq_div_iff (by positivity) (by positivity)] at h
    have hnat : w.valueOf i * 10 ^ (-e).toNat = c * 10 ^ e.toNat * 2 ^ w.unitBits := by exact_mod_cast h
    rw [hnat]
    ring
  have hpos : 0 < 2 ^ w.unitBits * 10 ^ e.toNat := by positivity
  have hread : w.readsBack i c e = true := by
    refine readsBack_iff.2 (nearestIndex_valueOf (by positivity) ?_)
    rw [hmul]
    ring
  unfold onGrid?
  simp only [Nat.pow_eq, hmul, Nat.mul_div_cancel _ hpos, Nat.mul_mod_left, Nat.mul_zero, hread, hpos, true_or,
    if_true]
  split <;> first | rfl | contradiction

/-! ## Integers -/

theorem exists_nat_mul_pow (c : ℕ) (he : 0 ≤ e) : ∃ s : ℕ, (c * 10 ^ e : ℚ) = s := by
  obtain ⟨k, rfl⟩ := Int.eq_ofNat_of_zero_le he
  exact ⟨c * 10 ^ k, by push_cast; rw [zpow_natCast]⟩

/-- A positive integer has its first digit in front of the point. -/
theorem firstOf_nonneg (hi : 0 < i) (h : w.valueAt i = n) : 0 ≤ w.firstOf i := by
  have hone : (1 : ℚ) ≤ n := by
    have hpos : (0 : ℚ) < n := by
      rw [← h, valueAt]
      have hvalue : (0 : ℚ) < w.valueOf i := by exact_mod_cast valueOf_pos hi
      positivity
    exact_mod_cast hpos
  by_contra hneg
  have hlt := (firstOf_spec (w := w) hi).2
  have hpow : (10 : ℚ) ^ (w.firstOf i + 1) ≤ 10 ^ (0 : ℤ) := zpow_le_zpow_right₀ (by norm_num) (by omega)
  rw [h] at hlt
  rw [zpow_zero] at hpow
  linarith

/-- **The grid of integers is not passed** by the search for an integer with few enough digits. -/
theorem exists_shortestParts_eq_of_valueAt (hi : 0 < i) (h : w.valueAt i = n) (hfirst : w.firstOf i < w.maxDigits) :
    ∃ c e, 0 ≤ e ∧ w.onGrid? i (w.valueOf i) (2 ^ w.unitBits) e = some c ∧ w.shortestParts i = (c, e) := by
  obtain ⟨k, hk⟩ := Int.eq_ofNat_of_zero_le (firstOf_nonneg hi h)
  have hread : w.indexOf n (w.firstOf i - k) = i := by
    rw [hk, sub_self]
    refine indexOf_valueOf ?_
    rw [valueAt, div_eq_iff (by positivity)] at h
    exact_mod_cast h.symm
  obtain ⟨j, c, hj, hfound, hparts⟩ := exists_shortestParts_eq (by omega) hread
  exact ⟨c, w.firstOf i - j, by omega, hfound, hparts⟩

/-- **What is found for an integer is an integer.** -/
theorem exists_shortestParts_eq_nat (hi : 0 < i) (h : w.valueAt i = n) :
    ∃ s : ℕ, ((w.shortestParts i).1 * 10 ^ (w.shortestParts i).2 : ℚ) = s := by
  rcases lt_or_ge (w.firstOf i) w.maxDigits with hfirst | hfirst
  · obtain ⟨c, e, he, -, hparts⟩ := exists_shortestParts_eq_of_valueAt hi h hfirst
    rw [hparts]
    exact exists_nat_mul_pow c he
  -- all grids of the search are of integers, and what it falls back on is the value
  · unfold shortestParts
    simp only
    cases hfound : (List.range w.maxDigits).findSome? _ with
    | none =>
      refine ⟨n, ?_⟩
      rw [Option.getD_none, ← h, valueAt, Nat.pow_eq, zpow_neg, zpow_natCast, Nat.cast_mul, Nat.cast_pow]
      have hten : (10 : ℚ) = 2 * 5 := by norm_num
      rw [hten, mul_pow]
      field_simp
      norm_num
    | some found =>
      obtain ⟨j, hj, hmap⟩ := List.exists_of_findSome?_eq_some hfound
      obtain ⟨c, -, rfl⟩ := Option.map_eq_some_iff.1 hmap
      have hjlt := List.mem_range.1 hj
      rw [Option.getD_some]
      refine exists_nat_mul_pow c ?_
      have hle : (w.maxDigits : ℤ) ≤ leadingExponent (w.valueOf i) (Nat.pow 2 w.unitBits) := hfirst
      omega

/-! ## Small integers -/

/-- The scale of a value, and how far a decimal is from it that reads back. -/
theorem exists_scale (hread : w.indexOf c e = i) : ∃ s m : ℕ, (0 < s → w.binade ≤ m) ∧
    w.valueAt i = m * w.lastBit s ∧ |(c * 10 ^ e : ℚ) - w.valueAt i| ≤ w.lastBit s / 2 := by
  obtain ⟨s, m, hindex, hlow, hhigh, -, hdist, -⟩ :=
    exists_nearestIndex_eq_add w (c * 10 ^ e.toNat) (show 0 < 10 ^ (-e).toNat by positivity)
  have hvalue : w.valueAt i = m * w.lastBit s := by
    rw [← hread, indexOf, hindex]
    exact valueAt_add hlow hhigh
  rw [cast_div_pow, ← hvalue] at hdist
  exact ⟨s, m, hlow, hvalue, hdist⟩

theorem lastBit_add (w : Width) (s : ℕ) : w.lastBit (w.unitBits + s) = 2 ^ s := by
  rw [lastBit, pow_add, mul_div_cancel_left₀ _ (by positivity)]

theorem lastBit_le_one {s : ℕ} (hs : s ≤ w.unitBits) : w.lastBit s ≤ 1 := by
  rw [lastBit, div_le_one (by positivity)]
  exact pow_le_pow_right₀ (by norm_num) hs

/-- The double `2 ^ 54` is the first one of its binade, so that its last bit is worth four. -/
theorem shortestParts_two_pow_54 (hi : valueAt .double i = (2 ^ 54 : ℕ)) :
    shortestParts .double i = (18014398509481984, 0) := by
  have hindex : indexOf .double (2 ^ 54) 0 = i := by
    refine indexOf_valueOf ?_
    rw [valueAt, div_eq_iff (by positivity)] at hi
    exact_mod_cast hi.symm
  have hnumber : indexOf .double (2 ^ 54) 0 = 4850376798678024192 := by decide +kernel
  rw [← hindex, hnumber]
  decide +kernel

/-- **Up to `2 ^ 54` an integer is its own shortest decimal.** -/
theorem shortestParts_eq_of_le (hi : 0 < i) (h : valueAt .double i = n) (hn : n ≤ 2 ^ 54) :
    ((shortestParts .double i).1 * 10 ^ (shortestParts .double i).2 : ℚ) = n := by
  rcases hn.eq_or_lt with rfl | hlt
  · rw [shortestParts_two_pow_54 h]
    norm_num
  have hfirst : firstOf .double i < maxDigits .double := by
    have hpow : (10 : ℚ) ^ firstOf .double i < 10 ^ (17 : ℤ) := by
      refine (firstOf_spec hi).1.trans_lt ?_
      have hcast : (n : ℚ) < 2 ^ 54 := by exact_mod_cast hlt
      rw [h]
      linarith
    exact (zpow_lt_zpow_iff_right₀ (by norm_num)).1 hpow
  obtain ⟨c, e, he, hfound, hparts⟩ := exists_shortestParts_eq_of_valueAt hi h hfirst
  rw [hparts]
  rcases he.eq_or_lt with rfl | hpos
  -- the search ends on the grid of integers
  · have hself := onGrid?_of_valueAt (h.trans (by rw [zpow_zero, mul_one] : (n : ℚ) = n * 10 ^ (0 : ℤ)))
    obtain rfl : n = c := Option.some.inj (hself.symm.trans hfound)
    rw [zpow_zero, mul_one]
  -- or with a multiple of ten, which is nearer than any other even number
  obtain ⟨k, rfl⟩ : ∃ k : ℕ, e = (k + 1 : ℕ) := ⟨(e - 1).toNat, by omega⟩
  obtain ⟨s, m, hlow, hvalue, hdist⟩ := exists_scale (readsBack_of_onGrid? hfound)
  rw [h] at hvalue hdist
  rw [zpow_natCast] at hdist ⊢
  have heven : (c * 10 ^ (k + 1) : ℚ) = (2 * (5 * c * 10 ^ k) : ℕ) := by
    push_cast
    ring
  rw [heven] at hdist ⊢
  generalize 5 * c * 10 ^ k = t at hdist ⊢
  rcases Nat.lt_or_ge (unitBits .double) s with hlarge | hsmall
  · obtain ⟨j, rfl⟩ : ∃ j, s = unitBits .double + (j + 1) := ⟨s - unitBits .double - 1, by omega⟩
    rw [lastBit_add] at hvalue hdist
    have hn' : n = m * 2 ^ (j + 1) := by exact_mod_cast hvalue
    have hm : 2 ^ 52 ≤ m := hlow (by omega)
    -- below `2 ^ 54` the last bit is worth two at most
    obtain rfl : j = 0 := by
      by_contra hj
      have hpow : 2 ^ 2 ≤ 2 ^ (j + 1) := Nat.pow_le_pow_right (by norm_num) (by omega)
      have hmul : 2 ^ 52 * 2 ^ 2 ≤ m * 2 ^ (j + 1) := Nat.mul_le_mul hm hpow
      omega
    have hint : |((2 * t : ℕ) : ℤ) - n| ≤ 1 := by
      norm_num at hdist
      exact_mod_cast hdist
    rw [abs_le] at hint
    exact_mod_cast (by omega : 2 * t = n)
  · have hone := lastBit_le_one hsmall
    have habs : |((2 * t : ℕ) : ℚ) - n| < 1 := by linarith
    have hint : |((2 * t : ℕ) : ℤ) - n| < 1 := by exact_mod_cast habs
    rw [Int.abs_lt_one_iff] at hint
    exact_mod_cast (by omega : 2 * t = n)

/-- What reads back as an integer of 64 bits has at most 38 digits. -/
theorem lt_of_indexOf_eq (h : valueAt .double i = n) (hn : n ≤ 2 ^ 64) (hread : indexOf .double c e = i) :
    (c * 10 ^ e : ℚ) < 10 ^ 38 := by
  by_contra hge
  have hlow : indexOf .double 1 38 ≤ i := by
    rw [← hread]
    refine indexOf_mono ?_
    rw [Nat.cast_one, one_mul]
    exact not_lt.1 hge
  have hhigh : i ≤ indexOf .double 1 20 := by
    refine le_indexOf ?_
    have hcast : (n : ℚ) ≤ 2 ^ 64 := by exact_mod_cast hn
    rw [h]
    norm_num at hcast ⊢
    linarith
  exact absurd (hlow.trans hhigh) (by decide +kernel)

end Width

namespace Binary

open Width Decimal

/-- **The shortest decimal of an integer** is an integer. -/
theorem isInteger_of_shortest? {x : Binary w} {d : Decimal} {n : ℤ} (hvalue : x.value = n)
    (h : x.shortest? = some d) : d.isInteger = true := by
  cases x with
  | nan => cases h
  | infinity => cases h
  | finite negative i =>
    have hvalueAt : w.valueAt i = n.natAbs := by rw [Nat.cast_natAbs, Int.cast_abs, ← hvalue, abs_value]
    rcases Nat.eq_zero_or_pos i.val with hi | hi
    · rw [shortest?, if_pos hi] at h
      cases h
      rfl
    rw [shortest?_finite hi.ne'] at h
    cases h
    obtain ⟨s, hs⟩ := exists_shortestParts_eq_nat hi hvalueAt
    rcases eq_or_ne s 0 with rfl | h0
    · have hpow : (10 : ℚ) ^ (shortestParts w i).2 ≠ 0 := by positivity
      rw [Nat.cast_zero, mul_eq_zero, or_iff_left hpow, Nat.cast_eq_zero] at hs
      rw [hs, ofParts_zero]
      rfl
    have hlt : s < 10 ^ 400 := by
      have hindex : w.indexOf _ _ < w.indexCount := (shortestParts_spec w i).1.trans_lt i.isLt
      have hoverflow : w.overflow < 10 ^ 400 := by cases w <;> decide +kernel
      rw [indexOf_lt_indexCount_iff, hs, Nat.cast_lt] at hindex
      exact hindex.trans hoverflow
    rw [ofParts_of_value_nat hs h0 hlt (by decide), isInteger_iff_value (ofParts_isNormal _ _ _), ofParts_eq_ofInt]
    exact ⟨_, value_ofInt (m := 400) (by split_ifs <;> omega) (by decide)⟩

/-- **The shortest decimal of a double that is an integer of 64 bits** is an integer, and the same one up to
`2 ^ 54`. -/
theorem exists_shortest?_eq_ofInt {x : Binary .double} {n : ℤ} (hx : x.isFinite = true) (hvalue : x.value = n)
    (hn : |n| ≤ 2 ^ 64) :
    ∃ s : ℤ, s.natAbs < 10 ^ 38 ∧ x.shortest? = some (ofInt s) ∧ (|n| ≤ 2 ^ 54 → s = n) := by
  cases x with
  | nan => cases hx
  | infinity => cases hx
  | finite negative i =>
    have hvalueAt : valueAt .double i = n.natAbs := by
      rw [Nat.cast_natAbs, Int.cast_abs, ← hvalue, abs_value]
    rw [Int.abs_eq_natAbs] at hn ⊢
    rcases Nat.eq_zero_or_pos i.val with hi | hi
    -- zero
    · have hn0 : n = 0 := by
        have hzero : valueAt .double 0 = 0 := by simp [valueAt, valueOf]
        rw [hi, hzero] at hvalueAt
        have : n.natAbs = 0 := by exact_mod_cast hvalueAt.symm
        omega
      refine ⟨0, by norm_num, ?_, fun _ => hn0.symm⟩
      rw [shortest?, if_pos hi]
      rfl
    obtain ⟨s, hs⟩ := exists_shortestParts_eq_nat hi hvalueAt
    have hread := (shortestParts_spec .double i).1
    have hlt : s < 10 ^ 38 := by
      have h := lt_of_indexOf_eq hvalueAt (by exact_mod_cast hn) hread
      rw [hs] at h
      exact_mod_cast h
    have hs0 : s ≠ 0 := by
      rintro rfl
      have hpow : (10 : ℚ) ^ (shortestParts .double i).2 ≠ 0 := by positivity
      rw [Nat.cast_zero, mul_eq_zero, or_iff_left hpow, Nat.cast_eq_zero] at hs
      rw [hs, indexOf_zero] at hread
      omega
    refine ⟨if negative then -s else s, ?_, ?_, fun hsmall => ?_⟩
    · split_ifs <;> omega
    · rw [shortest?_finite hi.ne', ofParts_of_value_nat hs hs0 hlt (by decide), ofParts_eq_ofInt]
    · have hsn : s = n.natAbs := by
        have h := shortestParts_eq_of_le hi hvalueAt (by exact_mod_cast hsmall)
        rw [hs] at h
        exact_mod_cast h
      rw [value_finite, hvalueAt, ← hsn] at hvalue
      rw [← Int.cast_inj (α := ℚ), ← hvalue]
      split_ifs <;> simp

end Binary

end SqlJson
