import SqlJson.Proofs.Json.Grammar
import SqlJson.Proofs.Text.Digits
import SqlJson.Text.Integer

/-!
# Integers in a text

* `Integral`: an integer as it is written.
* `readInteger_eq_ok_iff`: the reader accepts the integers of its range.
-/

namespace SqlJson.Text

open Json.Grammar

variable {bound v n : ℕ} {overflow : IntegerFault} {cs ds : List Char} {lo hi z : ℤ}

/-- **An integer as it is written**: a sign, which may be left out, and digits. -/
inductive Integral : List Char → ℤ → Prop
  | plain {ds : List Char} (h : Digits ds) : Integral ds (Nat.ofDigitChars 10 ds 0)
  | plus {ds : List Char} (h : Digits ds) : Integral ('+' :: ds) (Nat.ofDigitChars 10 ds 0)
  | minus {ds : List Char} (h : Digits ds) : Integral ('-' :: ds) (-Nat.ofDigitChars 10 ds 0)

/-- An absolute value is read if its digits are digits, and it is not above the bound. -/
theorem readDigits_eq_ok_iff (hv : v ≤ bound) : readDigits bound overflow cs v = .ok n ↔
    (∀ c ∈ cs, c.isDigit) ∧ Nat.ofDigitChars 10 cs v = n ∧ n ≤ bound := by
  induction cs generalizing v with
  | nil =>
    rw [readDigits, Nat.ofDigitChars_nil, Except.ok.injEq]
    constructor
    · rintro rfl
      exact ⟨by simp, rfl, hv⟩
    · exact fun h => h.2.1
  | cons c cs ih =>
    rw [readDigits, Nat.ofDigitChars_cons, List.forall_mem_cons]
    cases hc : c.isDigit with
    | false => simp
    | true =>
      simp only [Bool.not_true, Bool.false_eq_true, if_false]
      split_ifs with hover
      · -- the digits behind do not take the value below the bound again
        refine iff_of_false nofun ?_
        rintro ⟨-, heq, hle⟩
        have hmono := le_ofDigitChars cs (10 * v + (c.toNat - '0'.toNat))
        omega
      · rw [ih (Nat.not_lt.1 hover)]
        simp

/-- What is read of digits alone. -/
theorem map_readDigits_eq_ok_iff {f : ℕ → ℤ} (hne : ds ≠ []) :
    (readDigits bound overflow ds 0).map f = .ok z ↔
      Digits ds ∧ f (Nat.ofDigitChars 10 ds 0) = z ∧ Nat.ofDigitChars 10 ds 0 ≤ bound := by
  have hread (n : ℕ) : readDigits bound overflow ds 0 = .ok n ↔
      (∀ c ∈ ds, c.isDigit) ∧ Nat.ofDigitChars 10 ds 0 = n ∧ n ≤ bound :=
    readDigits_eq_ok_iff (Nat.zero_le bound)
  constructor
  · intro h
    cases hdigits : readDigits bound overflow ds 0 with
    | error fault =>
      rw [hdigits] at h
      cases h
    | ok n =>
      rw [hdigits] at h
      cases h
      obtain ⟨hall, rfl, hle⟩ := (hread n).1 hdigits
      exact ⟨⟨hne, hall⟩, rfl, hle⟩
  · rintro ⟨⟨-, hall⟩, rfl, hle⟩
    rw [(hread _).2 ⟨hall, rfl, hle⟩]
    rfl

theorem integral_plus_iff : Integral ('+' :: ds) z ↔ Digits ds ∧ (Nat.ofDigitChars 10 ds 0 : ℤ) = z := by
  constructor
  · rintro (⟨⟨-, h⟩⟩ | h)
    · exact absurd (h '+' List.mem_cons_self) (by decide)
    · exact ⟨h, rfl⟩
  · rintro ⟨h, rfl⟩
    exact .plus h

theorem integral_minus_iff : Integral ('-' :: ds) z ↔ Digits ds ∧ -(Nat.ofDigitChars 10 ds 0 : ℤ) = z := by
  constructor
  · rintro (⟨⟨-, h⟩⟩ | _ | h)
    · exact absurd (h '-' List.mem_cons_self) (by decide)
    · exact ⟨h, rfl⟩
  · rintro ⟨h, rfl⟩
    exact .minus h

theorem integral_iff_of_ne {c : Char} (hp : c ≠ '+') (hm : c ≠ '-') :
    Integral (c :: cs) z ↔ Digits (c :: cs) ∧ (Nat.ofDigitChars 10 (c :: cs) 0 : ℤ) = z := by
  constructor
  · rintro (h | _ | _)
    · exact ⟨h, rfl⟩
    · exact absurd rfl hp
    · exact absurd rfl hm
  · rintro ⟨h, rfl⟩
    exact .plain h

/-- **The integers of a range are read**, and nothing else. A minus sign is read only where the range has negative
numbers. -/
theorem readInteger_eq_ok_iff_of_nonpos (hlo : lo ≤ 0) (hhi : 0 ≤ hi) :
    readInteger lo hi cs = .ok z ↔ Integral cs z ∧ lo ≤ z ∧ z ≤ hi ∧ (cs.head? = some '-' → lo < 0) := by
  cases cs with
  | nil =>
    refine iff_of_false nofun ?_
    rintro ⟨⟨⟨hne, -⟩⟩, -⟩
    exact hne rfl
  | cons c ds =>
    rw [List.head?_cons, Option.some.injEq]
    by_cases hp : c = '+'
    · subst hp
      rw [integral_plus_iff]
      cases ds with
      | nil => exact iff_of_false nofun fun h => h.1.1.1 rfl
      | cons d ds =>
        have hread : readInteger lo hi ('+' :: d :: ds) =
            (readDigits hi.toNat .tooLarge (d :: ds) 0).map Int.ofNat := rfl
        have hsign : ('+' = '-' → lo < 0) ↔ True := by simp
        rw [hread, map_readDigits_eq_ok_iff (List.cons_ne_nil d ds), and_assoc, hsign, and_true]
        refine and_congr_right fun _ => ?_
        simp only [Int.ofNat_eq_natCast]
        omega
    by_cases hm : c = '-'
    · subst hm
      rw [integral_minus_iff, eq_self, true_imp_iff]
      cases ds with
      | nil => exact iff_of_false nofun fun h => h.1.1.1 rfl
      | cons d ds =>
        have hread : readInteger lo hi ('-' :: d :: ds) = if lo < 0 then
            (readDigits lo.natAbs .tooSmall (d :: ds) 0).map fun n => -Int.ofNat n else .error .invalidDigit := rfl
        rw [hread]
        split_ifs with hneg
        · rw [map_readDigits_eq_ok_iff (List.cons_ne_nil d ds), and_assoc]
          refine and_congr_right fun _ => ?_
          simp only [Int.ofNat_eq_natCast]
          omega
        · exact iff_of_false nofun fun h => hneg h.2.2.2
    · have hread : readInteger lo hi (c :: ds) = (readDigits hi.toNat .tooLarge (c :: ds) 0).map Int.ofNat := by
        unfold readInteger
        split <;> simp_all
      have hsign : (c = '-' → lo < 0) ↔ True := by simp [hm]
      rw [integral_iff_of_ne hp hm, hread, map_readDigits_eq_ok_iff (List.cons_ne_nil c ds), and_assoc, hsign,
        and_true]
      refine and_congr_right fun _ => ?_
      simp only [Int.ofNat_eq_natCast]
      omega

/-- **The integers of a range with negative numbers are read**, and nothing else. -/
theorem readInteger_eq_ok_iff (hlo : lo < 0) (hhi : 0 ≤ hi) :
    readInteger lo hi cs = .ok z ↔ Integral cs z ∧ lo ≤ z ∧ z ≤ hi := by
  rw [readInteger_eq_ok_iff_of_nonpos hlo.le hhi]
  simp only [hlo, implies_true, and_true]

end SqlJson.Text
