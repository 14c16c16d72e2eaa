import SqlJson.Proofs.Binary.Shortest
import SqlJson.Proofs.Number.Integers

/-!
# Doubles that are stored stay doubles

A double is stored only for a decimal that is no integer of 64 bits. Its shortest decimal may be
another decimal: for an integer beyond 64 bits it has zeros in place of the last digits. It has to be
shown that these zeros never take it back to an integer of 64 bits.

* `lossless?_spec`, `lossless?_shortest?`: when a double holds a decimal.
* `ofInt?_eq_none_of_shortest?`: the shortest decimal of a double beyond 64 bits stays beyond them.
-/

namespace SqlJson

open Binary Width

variable {d : Decimal} {x : Binary .double} {z y : ℤ}

namespace Binary

/-! ## Doubles that hold a decimal -/

theorem lossless?_spec {w : Width} {x : Binary w} (h : lossless? w d = some x) :
    ofDecimal w d = x ∧ x.isFinite ∧
      (x.shortest? = some d ∨ ∃ z, d.toInt? = some z ∧ x.toInt? = some z) := by
  unfold lossless? at h
  simp only at h
  split_ifs at h with hfin hshort hint <;> cases h
  · exact ⟨rfl, by simpa using hfin, .inl hshort⟩
  · simp only [Bool.and_eq_true, decide_eq_true_eq] at hint
    obtain ⟨⟨-, hsome⟩, heq⟩ := hint
    obtain ⟨z, hz⟩ := Option.isSome_iff_exists.1 hsome
    exact ⟨rfl, by simpa using hfin, .inr ⟨z, hz, heq ▸ hz⟩⟩

/-- **A number holds its shortest decimal.** -/
theorem lossless?_shortest? {w : Width} {x : Binary w} (h : x.shortest? = some d) (hz : x.isZero = false) :
    lossless? w d = some x := by
  unfold lossless?
  simp only [(Binary.ofDecimal_shortest? h hz).1, isFinite_of_shortest? h, h, Bool.not_true,
    Bool.false_eq_true, if_false, if_true]

/-! ## The ends of 64 bits -/

/-- The number of the double `2 ^ 63`. -/
theorem indexOf_two_pow_63 : indexOf .double (2 ^ 63) 0 = 4890909195324358656 := by
  decide +kernel

theorem valueOf_two_pow_63 : valueOf .double 4890909195324358656 = 2 ^ 63 * 2 ^ unitBits .double := by
  decide +kernel

/-- The number of the double `2 ^ 64`. -/
theorem indexOf_two_pow_64 : indexOf .double (2 ^ 64) 0 = 4895412794951729152 := by
  decide +kernel

/-- The shortest decimal of the double `2 ^ 64` is an integer above it. -/
theorem shortestParts_two_pow_64 : shortestParts .double 4895412794951729152 = (18446744073709552, 3) := by
  decide +kernel

theorem natAbs_eq_of_units {w : Width} {m n : ℕ} (h : m * 2 ^ w.unitBits = n * 2 ^ w.unitBits) : m = n :=
  Nat.eq_of_mul_eq_mul_right (Nat.two_pow_pos _) h

theorem indexOf_nat_mono {w : Width} {m n : ℕ} (h : m ≤ n) : w.indexOf m 0 ≤ w.indexOf n 0 :=
  indexOf_mono (by simpa using h)

/-- The number and the sign of an integer read as a decimal. -/
theorem indexOf_ofInt {w : Width} {negative : Bool} {i : Fin w.indexCount} (hy : y ≠ 0)
    (h : ofDecimal w (Decimal.ofInt y) = finite negative i) :
    w.indexOf y.natAbs 0 = i ∧ negative = decide (y < 0) := by
  rw [Decimal.ofInt, ofDecimal_ofParts (by omega) (by decide), ofIndex] at h
  split_ifs at h
  cases h
  exact ⟨rfl, rfl⟩

/-- Integers of 64 bits are nearest to finite doubles. -/
theorem isFinite_ofDecimal_ofInt {n : Number} (h : Number.ofInt? z = some n) :
    (ofDecimal .double (Decimal.ofInt z)).isFinite = true := by
  have hbound : ¬(z < -2 ^ 63 ∨ 2 ^ 64 ≤ z) := by
    rw [← Number.ofInt?_eq_none_iff, h]
    simp
  by_cases hz : z = 0
  · subst hz
    rfl
  · have hle : indexOf .double z.natAbs 0 ≤ indexOf .double (2 ^ 64) 0 := indexOf_nat_mono (by omega)
    have hlt : indexOf .double z.natAbs 0 < indexCount .double := by
      rw [indexOf_two_pow_64] at hle
      exact hle.trans_lt (by decide +kernel)
    rw [Decimal.ofInt, ofDecimal_ofParts (by omega) (by decide), ofIndex, dif_pos hlt]
    rfl

/-- **Integers beyond 64 bits never come back as integers of 64 bits**: an integer of 64 bits that
is read as the same double as one beyond would have to be next to the end of the range, and there
the shortest decimal is known. -/
theorem ofInt?_eq_none_of_shortest? (hz : x.toInt? = some z) (hzb : Number.ofInt? z = none)
    (hs : x.shortest? = some d) (hx : ofDecimal .double d = x) (hy : d.toInt? = some y) :
    Number.ofInt? y = none := by
  obtain ⟨rfl, -⟩ := Decimal.eq_ofInt_of_toInt? (shortest?_isNormal hs) hy
  cases x with
  | nan => cases hs
  | infinity => cases hs
  | finite negative i =>
    rw [Number.ofInt?_eq_none_iff] at hzb
    obtain ⟨hzval, hzneg⟩ := valueOf_toInt? hz
    have hzi := indexOf_valueOf hzval
    have hneg := hzneg (by omega)
    by_contra hyb
    rw [Number.ofInt?_eq_none_iff, not_or, not_lt, not_le] at hyb
    -- zero is read as the number `0`, and no integer beyond 64 bits has that number
    have hy0 : y ≠ 0 := by
      rintro rfl
      cases hx
      have h1 := indexOf_nat_mono (w := .double) (show 1 ≤ z.natAbs by omega)
      rw [hzi] at h1
      exact absurd h1 (by decide +kernel)
    obtain ⟨hyi, hneg'⟩ := indexOf_ofInt hy0 hx
    have hsign : decide (z < 0) = decide (y < 0) := hneg.symm.trans hneg'
    rw [decide_eq_decide] at hsign
    rcases hzb with hlow | hhigh
    -- the double `-2 ^ 63` stands between the two, so it is this one, and is met exactly
    · have h₁ := indexOf_nat_mono (w := .double) (show y.natAbs ≤ 2 ^ 63 by omega)
      have h₂ := indexOf_nat_mono (w := .double) (show 2 ^ 63 ≤ z.natAbs by omega)
      rw [indexOf_two_pow_63, hyi] at h₁
      rw [indexOf_two_pow_63, hzi] at h₂
      rw [le_antisymm h₁ h₂, valueOf_two_pow_63] at hzval
      have := natAbs_eq_of_units hzval
      omega
    -- the double `2 ^ 64` stands between the two, and its shortest decimal is larger
    · have h₁ := indexOf_nat_mono (w := .double) (show y.natAbs ≤ 2 ^ 64 by omega)
      have h₂ := indexOf_nat_mono (w := .double) (show 2 ^ 64 ≤ z.natAbs by omega)
      rw [indexOf_two_pow_64, hyi] at h₁
      rw [indexOf_two_pow_64, hzi] at h₂
      have hi := le_antisymm h₁ h₂
      have hi0 : i.val ≠ 0 := by omega
      have hparts : Decimal.ofParts false (18446744073709552 * 10 ^ 0) 3 = ⟨false, 18446744073709552, 3⟩ :=
        Decimal.ofParts_mul_pow (by norm_num)
      have hneg : negative = false := by
        rw [hneg, decide_eq_false_iff_not]
        omega
      rw [shortest?_finite hi0, hi, shortestParts_two_pow_64, hneg, ← mul_one 18446744073709552, ← pow_zero 10,
        hparts] at hs
      have hint : (⟨false, 18446744073709552, 3⟩ : Decimal).toInt? = some 18446744073709552000 := by
        decide +kernel
      rw [← Option.some.inj hs, hint] at hy
      cases hy
      omega

end Binary

end SqlJson
