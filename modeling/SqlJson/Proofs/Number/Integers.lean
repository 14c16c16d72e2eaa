import SqlJson.Number.Basic
import SqlJson.Proofs.Decimal.NormalForm

/-!
# Integers of 64 bits

A stored integer is settled by its value, whether it is signed or not.

* `ofInt?_eq_none_iff`: the integers that are not of 64 bits.
* `ofInt?_cases`: the two forms of an integer that is stored.
* `numericEq_of_ofInt?`: a stored integer equals every number of the same value.
-/

namespace SqlJson

variable {z y : ℤ} {n m : Number}

theorem Decimal.ofInt_inj (hz : z.natAbs < 10 ^ 38) (hy : y.natAbs < 10 ^ 38)
    (h : Decimal.ofInt z = Decimal.ofInt y) : z = y := by
  have hint := toInt?_ofInt hz
  rw [h, toInt?_ofInt hy, Option.some.injEq] at hint
  exact hint.symm

namespace Number

theorem ofInt?_eq_none_iff : ofInt? z = none ↔ z < -2 ^ 63 ∨ 2 ^ 64 ≤ z := by
  have hmin : Int64.minValue.toInt = -2 ^ 63 := by decide
  have hmax : Int64.maxValue.toInt = 2 ^ 63 - 1 := by decide
  have hsize : (UInt64.size : ℤ) = 2 ^ 64 := by decide
  unfold ofInt?
  rw [hmin, hmax, hsize]
  split_ifs <;> simp <;> omega

/-- **An integer is stored with its value**, signed or unsigned. -/
theorem ofInt?_cases (h : ofInt? z = some n) :
    (∃ value : Int64, n = .int value ∧ value.toInt = z) ∨
      ∃ value : UInt64, n = .uint value ∧ (value.toNat : ℤ) = z := by
  have hmin : Int64.minValue.toInt = -2 ^ 63 := by decide
  have hmax : Int64.maxValue.toInt = 2 ^ 63 - 1 := by decide
  have hsize : (UInt64.size : ℤ) = 2 ^ 64 := by decide
  unfold ofInt? at h
  rw [hmin, hmax, hsize] at h
  split_ifs at h with h₁ h₂
  · cases h
    exact .inl ⟨_, rfl, Int64.toInt_ofInt_of_le h₁.1 (by omega)⟩
  · cases h
    refine .inr ⟨_, rfl, ?_⟩
    rw [UInt64.toNat_ofNat_of_lt' (by omega), Int.toNat_of_nonneg h₂.1]

theorem ofInt?_of_mem (h₁ : -2 ^ 63 ≤ z) (h₂ : z < 2 ^ 63) : ofInt? z = some (.int (Int64.ofInt z)) := by
  have hmin : Int64.minValue.toInt = -2 ^ 63 := by decide
  have hmax : Int64.maxValue.toInt = 2 ^ 63 - 1 := by decide
  rw [ofInt?, if_pos (by omega)]

theorem ofInt?_toInt (value : Int64) : ofInt? value.toInt = some (.int value) := by
  rw [ofInt?, if_pos ⟨Int64.minValue_le_toInt value, Int64.toInt_le value⟩, Int64.ofInt_toInt]

theorem exists_ofInt? (hlow : -2 ^ 63 ≤ z) (hhigh : z < 2 ^ 64) : ∃ n, ofInt? z = some n := by
  have hne : ofInt? z ≠ none := by
    rw [ne_eq, ofInt?_eq_none_iff]
    omega
  exact Option.ne_none_iff_exists'.1 hne

theorem exists_ofInt?_toNat (value : UInt64) : ∃ n, ofInt? value.toNat = some n := by
  have h := value.toNat_lt
  exact exists_ofInt? (by omega) (by omega)

theorem ofInt?_ofUInt64 (value : UInt64) : ofInt? value.toNat = some (ofUInt64 value) := by
  obtain ⟨n, hn⟩ := exists_ofInt?_toNat value
  rw [ofUInt64, hn, Option.getD_some]

/-- Integers of 64 bits have fewer than 38 digits. -/
theorem lt_of_ofInt? (h : ofInt? z = some n) : z.natAbs < 10 ^ 38 := by
  have hsome : ofInt? z ≠ none := by simp [h]
  rw [ne_eq, ofInt?_eq_none_iff] at hsome
  omega

theorem toDecimal_of_ofInt? (h : ofInt? z = some n) : n.toDecimal = Decimal.ofInt z := by
  rcases ofInt?_cases h with ⟨value, rfl, rfl⟩ | ⟨value, rfl, rfl⟩ <;> rfl

theorem text_of_ofInt? (h : ofInt? z = some n) : n.text = toString z := by
  rcases ofInt?_cases h with ⟨value, rfl, rfl⟩ | ⟨value, rfl, rfl⟩ <;> rfl

/-- **An integer of 64 bits equals every number of the same value.** -/
theorem numericEq_of_ofInt? (h : ofInt? z = some n) (hm : m.toDecimal = Decimal.ofInt z) :
    n.numericEq m = true := by
  have hz := lt_of_ofInt? h
  have hn : n.toDecimal = m.toDecimal := (toDecimal_of_ofInt? h).trans hm.symm
  -- numbers stored alike are compared as they are stored, so the value has to settle them
  rcases ofInt?_cases h with ⟨a, rfl, rfl⟩ | ⟨a, rfl, rfl⟩
  · cases m with
    | int b =>
      have heq := Decimal.ofInt_inj (lt_of_ofInt? (ofInt?_toInt b)) hz hm
      exact decide_eq_true (Int64.toInt_inj.1 heq.symm)
    | _ => exact decide_eq_true hn
  · cases m with
    | uint b =>
      obtain ⟨b', hb⟩ := exists_ofInt?_toNat b
      have heq := Decimal.ofInt_inj (lt_of_ofInt? hb) hz hm
      exact decide_eq_true (UInt64.toNat_inj.1 (Int.natCast_inj.1 heq.symm))
    | _ => exact decide_eq_true hn

end Number

end SqlJson
