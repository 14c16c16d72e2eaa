import SqlJson.Proofs.Binary.Separation

/-!
# How many digits a shortest decimal has

The search for the shortest decimal goes from coarse grids of decimals to fine ones. It ends no later than on
the first grid that has some decimal which reads back, and what it finds there has one digit more than grids
were passed.

* `leadingExponent_spec`: where the first digit of a fraction stands.
* `isSome_onGrid?`, `onGrid?_le`: what is found on one grid.
* `exists_shortestParts_eq`: the grid on which the search ends.
* `shortestParts_le`: enough digits for all values of a format.
* `shortestParts_indexOf`: decimals with few digits are their own shortest decimals.
-/

namespace SqlJson.Width

variable {w : Width} {a b c c' i j k n : ℕ} {e e' : ℤ}

/-! ## The first digit -/

/-- **Where the first digit of a fraction stands.** -/
theorem leadingExponent_spec (ha : 0 < a) (hb : 0 < b) :
    (10 : ℚ) ^ leadingExponent a b ≤ a / b ∧ (a / b : ℚ) < 10 ^ (leadingExponent a b + 1) := by
  have hbq : (0 : ℚ) < b := by exact_mod_cast hb
  have haq : (0 : ℚ) < a := by exact_mod_cast ha
  unfold leadingExponent
  split_ifs with h
  · have hne : a / b ≠ 0 := (Nat.div_pos h hb).ne'
    obtain ⟨hlow, hhigh⟩ := pow_length_le hne
    constructor
    · refine hlow.trans ?_
      rw [le_div_iff₀ hbq]
      exact_mod_cast Nat.div_mul_le_self a b
    · rw [sub_add_cancel, div_lt_iff₀ hbq]
      have hpow : ((a / b : ℕ) : ℚ) + 1 ≤ 10 ^ ((Nat.toDigits 10 (a / b)).length : ℤ) := by
        rw [zpow_natCast] at hhigh ⊢
        exact_mod_cast hhigh
      have hlt : (a : ℚ) < ((a / b : ℕ) + 1) * b := by
        exact_mod_cast Nat.lt_mul_of_div_lt (Nat.lt_succ_self _) hb
      calc (a : ℚ) < ((a / b : ℕ) + 1) * b := hlt
        _ ≤ _ := by gcongr
  · have hne : (b - 1) / a ≠ 0 := (Nat.div_pos (by omega) ha).ne'
    obtain ⟨hlow, hhigh⟩ := pow_length_le hne
    generalize hlen : (Nat.toDigits 10 ((b - 1) / a)).length = len at hlow hhigh
    have hle : ((b - 1) / a : ℕ) * a ≤ b - 1 := Nat.div_mul_le_self _ _
    have hlt : b - 1 < ((b - 1) / a + 1) * a := Nat.lt_mul_of_div_lt (Nat.lt_succ_self _) ha
    constructor
    · rw [zpow_neg, inv_le_comm₀ (by positivity) (by positivity), inv_div, div_le_iff₀ haq]
      have hpow : (((b - 1) / a : ℕ) : ℚ) + 1 ≤ 10 ^ (len : ℤ) := by
        rw [zpow_natCast] at hhigh ⊢
        exact_mod_cast hhigh
      have hb' : (b : ℚ) ≤ (((b - 1) / a : ℕ) + 1) * a := by
        have : b ≤ ((b - 1) / a + 1) * a := by omega
        exact_mod_cast this
      calc (b : ℚ) ≤ (((b - 1) / a : ℕ) + 1) * a := hb'
        _ ≤ _ := by gcongr
    · have hexp : (-(len : ℤ) + 1) = -((len : ℤ) - 1) := by ring
      rw [hexp, zpow_neg, div_lt_comm₀ hbq (by positivity), div_inv_eq_mul, mul_comm]
      have hb' : (((b - 1) / a : ℕ) : ℚ) * a < b := by
        have : (b - 1) / a * a < b := by omega
        exact_mod_cast this
      calc (10 : ℚ) ^ ((len : ℤ) - 1) * a ≤ ((b - 1) / a : ℕ) * a := by gcongr
        _ < b := hb'

/-- The first digit of a value. -/
def firstOf (w : Width) (i : ℕ) : ℤ := leadingExponent (w.valueOf i) (2 ^ w.unitBits)

theorem valueOf_pos (hi : 0 < i) : 0 < w.valueOf i := by
  by_contra h
  have hzero : w.nearestIndex 0 (2 ^ w.unitBits) = i :=
    nearestIndex_valueOf (by positivity) (by simp [Nat.eq_zero_of_not_pos h])
  rw [nearestIndex_zero (by positivity)] at hzero
  omega

theorem firstOf_spec (hi : 0 < i) :
    (10 : ℚ) ^ w.firstOf i ≤ w.valueAt i ∧ w.valueAt i < 10 ^ (w.firstOf i + 1) := by
  have h := leadingExponent_spec (valueOf_pos (w := w) hi) (show 0 < 2 ^ w.unitBits by positivity)
  rw [Nat.cast_pow, Nat.cast_ofNat] at h
  exact h

/-! ## One grid -/

/-- The multiple of `10 ^ e` not above a value. -/
def belowOn (w : Width) (i : ℕ) (e : ℤ) : ℕ :=
  w.valueOf i * Nat.pow 10 (-e).toNat / (2 ^ w.unitBits * Nat.pow 10 e.toNat)

theorem belowOn_spec (w : Width) (i : ℕ) (e : ℤ) :
    (w.belowOn i e * 10 ^ e : ℚ) ≤ w.valueAt i ∧ w.valueAt i < (w.belowOn i e + 1 : ℕ) * 10 ^ e := by
  have hpow := cast_div_pow 1 e
  rw [Nat.cast_one, one_mul, one_mul] at hpow
  have hp : (0 : ℚ) < ((10 ^ e.toNat : ℕ) : ℚ) := by positivity
  have hq : (0 : ℚ) < ((10 ^ (-e).toNat : ℕ) : ℚ) := by positivity
  have hunit : (0 : ℚ) < 2 ^ w.unitBits := by positivity
  rw [← hpow, valueAt]
  constructor
  · rw [← mul_div_assoc, div_le_div_iff₀ hq hunit]
    have hle := Nat.div_mul_le_self (w.valueOf i * 10 ^ (-e).toNat) (2 ^ w.unitBits * 10 ^ e.toNat)
    have hcast : ((w.belowOn i e * (2 ^ w.unitBits * 10 ^ e.toNat) : ℕ) : ℚ) ≤
        (w.valueOf i * 10 ^ (-e).toNat : ℕ) := by exact_mod_cast hle
    push_cast at hcast ⊢
    linarith
  · rw [← mul_div_assoc, div_lt_div_iff₀ hunit hq]
    have hlt : w.valueOf i * 10 ^ (-e).toNat < (w.belowOn i e + 1) * (2 ^ w.unitBits * 10 ^ e.toNat) :=
      Nat.lt_mul_of_div_lt (Nat.lt_succ_self _) (by positivity)
    have hcast : ((w.valueOf i * 10 ^ (-e).toNat : ℕ) : ℚ) <
        ((w.belowOn i e + 1) * (2 ^ w.unitBits * 10 ^ e.toNat) : ℕ) := by exact_mod_cast hlt
    push_cast at hcast ⊢
    linarith

/-- What is found on a grid is one of the two neighbours. -/
theorem eq_of_onGrid? (h : w.onGrid? i (w.valueOf i) (2 ^ w.unitBits) e = some c) :
    c = w.belowOn i e ∨ c = w.belowOn i e + 1 := by
  unfold onGrid? at h
  dsimp only at h
  split at h
  · split_ifs at h
    · exact .inl (Option.some.inj h).symm
    · exact .inr (Option.some.inj h).symm
  · exact .inl (Option.some.inj h).symm
  · exact .inr (Option.some.inj h).symm
  · cases h

/-- **A grid has what is searched for if some decimal on it reads back.** -/
theorem isSome_onGrid? (h : w.indexOf c e = i) : (w.onGrid? i (w.valueOf i) (2 ^ w.unitBits) e).isSome := by
  obtain ⟨hbelow, habove⟩ := belowOn_spec w i e
  have hpow : (0 : ℚ) < 10 ^ e := by positivity
  -- the neighbour of the value on the side of the decimal reads back too
  have hneighbour : w.readsBack i (w.belowOn i e) e = true ∨ w.readsBack i (w.belowOn i e + 1) e = true := by
    rw [readsBack_iff, readsBack_iff]
    rcases Nat.lt_or_ge (w.belowOn i e) c with hlt | hge
    · right
      refine le_antisymm ?_ (le_indexOf habove.le)
      conv_rhs => rw [← h]
      refine indexOf_mono ?_
      have hle : ((w.belowOn i e + 1 : ℕ) : ℚ) ≤ c := by exact_mod_cast hlt
      gcongr
    · left
      refine le_antisymm (indexOf_le hbelow) ?_
      conv_lhs => rw [← h]
      refine indexOf_mono ?_
      have hle : (c : ℚ) ≤ w.belowOn i e := by exact_mod_cast hge
      gcongr
  unfold onGrid?
  dsimp only
  split
  · split_ifs <;> rfl
  · rfl
  · rfl
  · rename_i h₁ h₂
    rcases hneighbour with hb | ha
    · exact absurd (hb.symm.trans h₁) (by decide)
    · exact absurd (ha.symm.trans h₂) (by decide)

/-- What is found `k` places behind the first digit has no more than `k + 2` digits, and `k + 2` only if it is a
power of ten. -/
theorem onGrid?_le (hi : 0 < i) (h : w.onGrid? i (w.valueOf i) (2 ^ w.unitBits) (w.firstOf i - k) = some c) :
    c ≤ 10 ^ (k + 1) := by
  have hbelow : w.belowOn i (w.firstOf i - k) < 10 ^ (k + 1) := by
    have hpow : (0 : ℚ) < 10 ^ (w.firstOf i - k) := by positivity
    have hlt : (w.belowOn i (w.firstOf i - k) * 10 ^ (w.firstOf i - k) : ℚ) <
        10 ^ (k + 1) * 10 ^ (w.firstOf i - k) := by
      calc _ ≤ w.valueAt i := (belowOn_spec w i _).1
        _ < 10 ^ (w.firstOf i + 1) := (firstOf_spec hi).2
        _ = 10 ^ (k + 1) * 10 ^ (w.firstOf i - k) := by
          rw [← zpow_natCast, ← zpow_add₀ (by norm_num)]
          congr 1
          push_cast
          ring
    exact_mod_cast lt_of_mul_lt_mul_right hlt hpow.le
  rcases eq_of_onGrid? h with rfl | rfl <;> omega

/-! ## The search -/

/-- **The search ends no later than on a grid that has what is searched for.** -/
theorem exists_shortestParts_eq (hk : k < w.maxDigits) (h : w.indexOf c (w.firstOf i - k) = i) :
    ∃ j c', j ≤ k ∧ w.onGrid? i (w.valueOf i) (2 ^ w.unitBits) (w.firstOf i - j) = some c' ∧
      w.shortestParts i = (c', w.firstOf i - j) := by
  obtain ⟨found, hfound⟩ := Option.isSome_iff_exists.1 (isSome_onGrid? h)
  set f : ℕ → Option (ℕ × ℤ) := fun k =>
    (w.onGrid? i (w.valueOf i) (2 ^ w.unitBits) (w.firstOf i - k)).map fun c => (c, w.firstOf i - k) with hf
  have hparts : w.shortestParts i =
      ((List.range w.maxDigits).findSome? f).getD (w.valueOf i * Nat.pow 5 w.unitBits, -w.unitBits) := rfl
  have hsome : ((List.range w.maxDigits).findSome? f).isSome := by
    rw [List.findSome?_isSome_iff]
    exact ⟨k, List.mem_range.2 hk, by simp [hf, hfound]⟩
  obtain ⟨parts, hfind⟩ := Option.isSome_iff_exists.1 hsome
  rw [hparts, hfind, Option.getD_some]
  obtain ⟨before, j, after, hsplit, hj, hbefore⟩ := List.findSome?_eq_some_iff.1 hfind
  obtain ⟨c', hc', rfl⟩ := Option.map_eq_some_iff.1 hj
  refine ⟨j, c', ?_, hc', rfl⟩
  -- grids before the one where the search ends have nothing
  by_contra hlt
  have hsorted := List.pairwise_lt_range (n := w.maxDigits)
  rw [hsplit, List.pairwise_append] at hsorted
  have hmem : k ∈ before ++ j :: after := hsplit ▸ List.mem_range.2 hk
  rcases List.mem_append.1 hmem with hmem | hmem
  · have hnone := hbefore k hmem
    simp [hf, hfound] at hnone
  · rcases List.mem_cons.1 hmem with rfl | hmem
    · exact hlt le_rfl
    · have := List.rel_of_pairwise_cons hsorted.2.1 hmem
      omega

/-- **Enough digits for all values of a format.** If the last of so many digits is worth less than half a bit,
every value has a shortest decimal with so many digits. -/
theorem shortestParts_le (hi : 0 < i) (hk : k < w.maxDigits) (hdigits : 4 * w.binade ≤ 10 ^ k) :
    (w.shortestParts i).1 ≤ 10 ^ (k + 1) := by
  have hread : w.indexOf (w.belowOn i (w.firstOf i - k) + 1) (w.firstOf i - k) = i := by
    obtain ⟨hbelow, habove⟩ := belowOn_spec w i (w.firstOf i - k)
    refine indexOf_eq_of_lt habove.le ?_
    have hunit : (10 : ℚ) ^ (w.firstOf i - k) < 2 ^ w.scaleOf i / 2 ^ w.unitBits / 2 := by
      have hpow : (10 : ℚ) ^ (w.firstOf i - k) * 10 ^ k = 10 ^ w.firstOf i := by
        rw [← zpow_natCast, ← zpow_add₀ (by norm_num), sub_add_cancel]
      have hle := (firstOf_spec (w := w) hi).1
      have hlt := valueAt_lt w i
      have hdigits' : 4 * (w.binade : ℚ) ≤ 10 ^ k := by exact_mod_cast hdigits
      have hb : (0 : ℚ) < w.binade := by exact_mod_cast w.binade_pos
      have hzpow : (0 : ℚ) < 10 ^ (w.firstOf i - k) := by positivity
      generalize (2 : ℚ) ^ w.scaleOf i / 2 ^ w.unitBits = bit at hlt ⊢
      nlinarith
    push_cast at habove ⊢
    linarith
  obtain ⟨j, c', hj, hfound, hparts⟩ := exists_shortestParts_eq hk hread
  rw [hparts]
  exact (onGrid?_le hi hfound).trans (Nat.pow_le_pow_right (by norm_num) (by omega))

/-- **Decimals with few digits are their own shortest decimals**, up to zeros at the end: the search ends on a
grid where nothing else is rounded to the same number. -/
theorem shortestParts_indexOf (hbits : w.binade ≤ w.indexOf c e) (hk : k < w.maxDigits)
    (hc : 2 * c < 10 ^ (k + 1)) (hdigits : 2 * 10 ^ (k + 1) < w.binade) :
    ((w.shortestParts (w.indexOf c e)).1 : ℚ) * 10 ^ (w.shortestParts (w.indexOf c e)).2 = c * 10 ^ e := by
  have hvalue := valueAt_indexOf_le hbits
  have hi : 0 < w.indexOf c e := w.binade_pos.trans_le hbits
  generalize hindex : w.indexOf c e = i at *
  -- the first digit is not far from the last one
  have hfirst : w.firstOf i ≤ e + k := by
    have hlt : (10 : ℚ) ^ w.firstOf i < 10 ^ (e + k + 1) := by
      have hc' : 2 * (c : ℚ) < 10 ^ (k + 1) := by exact_mod_cast hc
      have hpow : (10 : ℚ) ^ (e + k + 1) = 10 ^ (k + 1) * 10 ^ e := by
        rw [← zpow_natCast, ← zpow_add₀ (by norm_num)]
        congr 1
        push_cast
        ring
      have hzpow : (0 : ℚ) < 10 ^ e := by positivity
      rw [hpow]
      calc _ ≤ w.valueAt i := (firstOf_spec hi).1
        _ ≤ 2 * (c * 10 ^ e) := hvalue
        _ = 2 * c * 10 ^ e := by ring
        _ < _ := by gcongr
    have := (zpow_lt_zpow_iff_right₀ (by norm_num)).1 hlt
    omega
  obtain ⟨n, m, hn, hm⟩ : ∃ n m : ℕ, n ≤ k ∧ w.firstOf i - n + m = e := by
    refine ⟨(w.firstOf i - e).toNat, (e - w.firstOf i).toNat, ?_, ?_⟩ <;> omega
  have hread : w.indexOf (c * 10 ^ m) (w.firstOf i - n) = i := by rw [indexOf_mul_pow, hm, hindex]
  obtain ⟨j, c', hj, hfound, hparts⟩ := exists_shortestParts_eq (by omega) hread
  have hback := readsBack_of_onGrid? hfound
  have hc' : 2 * c' < w.binade := by
    have hle := onGrid?_le hi hfound
    have hpow : (10 : ℕ) ^ (j + 1) ≤ 10 ^ (k + 1) := Nat.pow_le_pow_right (by norm_num) (by omega)
    omega
  rw [hparts]
  rcases le_total (w.firstOf i - j) e with hle | hge
  · exact eq_of_indexOf_le (by rw [hback]; exact hbits) (hindex.trans hback.symm) hle hc'
  · exact (eq_of_indexOf_le (by rw [hindex]; exact hbits) (hback.trans hindex.symm) hge (by omega)).symm

end SqlJson.Width
