import Mathlib.Tactic
import SqlJson.Decimal.Basic

/-!
# The value of digits

Digits are put behind a number one after another. The arithmetic that does so is checked at each step, which comes to
one check of the result, as no step makes the number smaller.

* `le_ofDigitChars`, `ofDigitChars_lt`: the bounds of a number with digits put behind it.
* `Decimal.accumulate?_eq`, `Decimal.scale?_eq`: checked arithmetic, by its result.
* `Decimal.le_maxInt128_of_le`: 38 digits never overflow.
* `ofDigitChars_half`: the first digit behind a place decides how to round there.
-/

namespace SqlJson

namespace Text

variable {ds whole tail : List Char} {next : Char}

theorem digit_le_nine {c : Char} (hc : c.isDigit) : c.toNat - '0'.toNat ≤ 9 := by
  have h := Char.isDigit_iff_toNat.1 hc
  have h0 : '0'.toNat = 48 := rfl
  have h9 : '9'.toNat = 57 := rfl
  omega

/-- Digits put behind a number do not make it smaller. -/
theorem le_ofDigitChars (cs : List Char) (v : ℕ) : v ≤ Nat.ofDigitChars 10 cs v := by
  induction cs generalizing v with
  | nil => rw [Nat.ofDigitChars_nil]
  | cons c cs ih =>
    rw [Nat.ofDigitChars_cons]
    exact le_trans (by omega) (ih _)

/-- Digits put behind a number are fewer than the next number with as many zeros. -/
theorem ofDigitChars_lt (hd : ∀ c ∈ ds, c.isDigit) (v : ℕ) :
    Nat.ofDigitChars 10 ds v < (v + 1) * 10 ^ ds.length := by
  induction ds generalizing v with
  | nil =>
    rw [Nat.ofDigitChars_nil, List.length_nil]
    omega
  | cons c ds ih =>
    obtain ⟨hc, hds⟩ := List.forall_mem_cons.1 hd
    have hdigit := digit_le_nine hc
    rw [Nat.ofDigitChars_cons, List.length_cons]
    calc
      Nat.ofDigitChars 10 ds (10 * v + (c.toNat - '0'.toNat))
          < (10 * v + (c.toNat - '0'.toNat) + 1) * 10 ^ ds.length := ih hds _
      _ ≤ (10 * (v + 1)) * 10 ^ ds.length := Nat.mul_le_mul_right _ (by omega)
      _ = (v + 1) * 10 ^ (ds.length + 1) := by ring

/-- No more digits than `n` are below `10 ^ n`. -/
theorem ofDigitChars_lt_pow {n : ℕ} (hd : ∀ c ∈ ds, c.isDigit) (hn : ds.length ≤ n) :
    Nat.ofDigitChars 10 ds 0 < 10 ^ n := by
  have hlt := ofDigitChars_lt hd 0
  have hpow : 10 ^ ds.length ≤ 10 ^ n := Nat.pow_le_pow_right (by norm_num) hn
  omega

/-- **The first digit behind a place decides how to round there**: half a unit is reached from five on, whatever
follows. -/
theorem ofDigitChars_half (whole : List Char) (hn : next.isDigit) (ht : ∀ c ∈ tail, c.isDigit) :
    (2 * Nat.ofDigitChars 10 (whole ++ next :: tail) 0 + 10 ^ (tail.length + 1)) / (2 * 10 ^ (tail.length + 1)) =
      Nat.ofDigitChars 10 whole 0 + if '5' ≤ next then 1 else 0 := by
  have hfive : '5' ≤ next ↔ 5 ≤ next.toNat - '0'.toNat := by
    have h5 : '5' ≤ next ↔ '5'.toNat ≤ next.toNat := UInt32.le_iff_toNat_le
    rw [h5, show '5'.toNat = 53 from rfl, show '0'.toNat = 48 from rfl]
    omega
  have hdigit := digit_le_nine hn
  have htail : Nat.ofDigitChars 10 tail 0 < 10 ^ tail.length := by simpa using ofDigitChars_lt ht 0
  have hunit : 0 < 10 ^ tail.length := by positivity
  rw [Nat.ofDigitChars_append, Nat.ofDigitChars_cons, Nat.ofDigitChars_eq_ofDigitChars_zero, pow_succ, mul_add]
  simp only [hfive]
  generalize next.toNat - '0'.toNat = digit at *
  generalize Nat.ofDigitChars 10 tail 0 = rest at *
  generalize Nat.ofDigitChars 10 whole 0 = number
  generalize (10 : ℕ) ^ tail.length = unit at *
  split_ifs with h
  · have hlow : unit * 5 ≤ unit * digit := Nat.mul_le_mul_left unit h
    have hhigh : unit * digit ≤ unit * 9 := Nat.mul_le_mul_left unit hdigit
    refine Nat.div_eq_of_lt_le ?_ ?_ <;> nlinarith
  · have hhigh : unit * digit ≤ unit * 4 := Nat.mul_le_mul_left unit (by omega)
    refine Nat.div_eq_of_lt_le ?_ ?_ <;> nlinarith

end Text

namespace Decimal

variable {n : ℕ} {ds : List Char}

theorem checked?_of_le (h : n ≤ maxInt128) : checked? n = some n := if_pos h

theorem checked?_of_lt (h : maxInt128 < n) : checked? n = none := if_neg (not_le.2 h)

/-- **Digits are put behind a number without overflow** if the result is in range. -/
theorem accumulate?_eq (ds : List Char) (h : n ≤ maxInt128) :
    accumulate? ds n = checked? (Nat.ofDigitChars 10 ds n) := by
  induction ds generalizing n with
  | nil =>
    rw [accumulate?, Nat.ofDigitChars_nil, checked?_of_le h]
  | cons c ds ih =>
    rw [accumulate?, Nat.ofDigitChars_cons]
    have hmono := Text.le_ofDigitChars ds (10 * n + (c.toNat - '0'.toNat))
    rcases Nat.lt_or_ge maxInt128 (10 * n) with hten | hten
    · rw [checked?_of_lt hten, checked?_of_lt (by omega)]
      rfl
    rw [checked?_of_le hten, Option.bind_eq_bind, Option.bind_some]
    rcases Nat.lt_or_ge maxInt128 (10 * n + (c.toNat - '0'.toNat)) with hdigit | hdigit
    · rw [checked?_of_lt hdigit, checked?_of_lt (by omega)]
      rfl
    · rw [checked?_of_le hdigit, Option.bind_some, ih hdigit]

/-- **Zeros are put behind a number without overflow** if the result is in range. -/
theorem scale?_eq (k : ℕ) (h : n ≤ maxInt128) : scale? k n = checked? (n * 10 ^ k) := by
  induction k generalizing n with
  | zero => rw [scale?, pow_zero, mul_one, checked?_of_le h]
  | succ k ih =>
    have hpow : n * 10 ^ (k + 1) = 10 * n * 10 ^ k := by ring
    rw [scale?, hpow]
    rcases Nat.lt_or_ge maxInt128 (10 * n) with hten | hten
    · have hle : 10 * n * 1 ≤ 10 * n * 10 ^ k := Nat.mul_le_mul_left _ (Nat.one_le_pow _ _ (by norm_num))
      rw [checked?_of_lt hten, checked?_of_lt (by omega)]
      rfl
    · rw [checked?_of_le hten, Option.bind_eq_bind, Option.bind_some, ih hten]

/-- Numbers of 38 digits, and the next one, are in range. -/
theorem le_maxInt128_of_le (h : n ≤ 10 ^ maxIntegerDigits) : n ≤ maxInt128 := by
  have hpow : (10 : ℕ) ^ maxIntegerDigits ≤ maxInt128 := by decide
  omega

end Decimal

end SqlJson
