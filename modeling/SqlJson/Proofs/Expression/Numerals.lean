import SqlJson.Proofs.Decimal.Reading
import SqlJson.Proofs.Decimal.Value
import SqlJson.Proofs.Expression.Grammar

/-!
# Numbers in expressions

* `ofChars?_eq_some_iff_integral`: a text without a point and an exponent is a decimal if it is an integer, and
  then the decimal of that integer.
* `numberLiteral_eq_ok_iff`: the reader of numbers accepts the numerals.
* `value_ofInt_of_integral`: the decimal of a written integer has exactly its value.
-/

namespace SqlJson

open Text
open Json.Grammar (Digits)
open Expression.Grammar (IsFloating IsBigint Numeral)

variable {cs ds sign : List Char} {negative : Bool} {d : Decimal} {n : ℤ} {m : ℕ}

namespace Decimal

/-! ## Integers among the decimals -/

theorem ofChars?_of_digits (hs : Sign sign negative) (h : Digits ds) :
    ofChars? (sign ++ ds) =
      some (ofInt (if negative then -(Nat.ofDigitChars 10 ds 0 : ℤ) else Nat.ofDigitChars 10 ds 0)) := by
  have hstops : Stops (fun c => c.isDigit || c = '.') [] := stops_nil
  have hread := ofChars?_parts hs h.2 .absent (by simp) (by simpa using h.1) hstops
  simp only [List.append_nil] at hread
  rw [hread, ← ofParts_eq_ofInt]
  rfl

/-- The decimal of a written integer. -/
theorem ofChars?_of_integral (h : Integral cs n) : ofChars? cs = some (ofInt n) := by
  cases h with
  | plain h => exact ofChars?_of_digits .absent h
  | plus h => exact ofChars?_of_digits .plus h
  | minus h => exact ofChars?_of_digits .minus h

/-- Digits behind a sign are an integer. -/
theorem exists_integral_of_splitSign (h : Digits (splitSign cs).2) : ∃ n, Integral cs n := by
  unfold splitSign at h
  split at h
  · exact ⟨_, .minus h⟩
  · exact ⟨_, .plus h⟩
  · exact ⟨_, .plain h⟩

theorem isFloating_of_splitSign (h : IsFloating (splitSign cs).2) : IsFloating cs := by
  obtain ⟨c, hc, hfloat⟩ := h
  refine ⟨c, ?_, hfloat⟩
  unfold splitSign at hc
  split at hc
  · exact List.mem_cons_of_mem _ hc
  · exact List.mem_cons_of_mem _ hc
  · exact hc

/-- Without a point, no digits are behind one. -/
theorem splitFraction_of_not_isFloating (h : ¬IsFloating cs) : splitFraction cs = ([], cs) := by
  unfold splitFraction
  split
  · exact absurd ⟨'.', List.mem_cons_self, .inl rfl⟩ h
  · rfl

/-- Without an exponent, nothing may stand behind the digits. -/
theorem eq_nil_of_readExponent? (h : ¬IsFloating cs) {e : ℤ} (hread : readExponent? cs = some e) : cs = [] := by
  cases cs with
  | nil => rfl
  | cons c cs =>
    have hc : ¬(c = 'e' ∨ c = 'E') := fun hc => h ⟨c, List.mem_cons_self, .inr hc⟩
    rw [readExponent?, if_neg hc] at hread
    cases hread

/-- A decimal without a point and an exponent is digits behind a sign. -/
theorem digits_of_ofChars? (h : ¬IsFloating cs) (hread : ofChars? cs = some d) : Digits (splitSign cs).2 := by
  have hbody : ¬IsFloating (splitSign cs).2 := fun hfloat => h (isFloating_of_splitSign hfloat)
  unfold ofChars? at hread
  generalize splitSign cs = split at hread hbody ⊢
  obtain ⟨negative, body⟩ := split
  dsimp only at hread hbody ⊢
  have htail : ¬IsFloating (body.dropWhile Char.isDigit) := by
    rintro ⟨c, hc, hfloat⟩
    exact hbody ⟨c, (List.dropWhile_sublist Char.isDigit).mem hc, hfloat⟩
  rw [splitFraction_of_not_isFloating htail] at hread
  dsimp only at hread
  rw [Option.ite_none_left_eq_some] at hread
  obtain ⟨hne, hread⟩ := hread
  obtain ⟨e, he, -⟩ := Option.map_eq_some_iff.1 hread
  -- all of the text is the run of digits
  have hrun := List.takeWhile_append_dropWhile (p := Char.isDigit) (l := body)
  rw [eq_nil_of_readExponent? htail he, List.append_nil] at hrun
  rw [hrun] at hne
  refine ⟨fun heq => hne ⟨heq, rfl⟩, ?_⟩
  rw [← hrun]
  exact List.all_eq_true.1 List.all_takeWhile

/-- **A text without a point and an exponent** is a decimal if it is an integer. -/
theorem ofChars?_eq_some_iff_integral (h : ¬IsFloating cs) :
    ofChars? cs = some d ↔ ∃ n, Integral cs n ∧ d = ofInt n := by
  constructor
  · intro hread
    obtain ⟨n, hn⟩ := exists_integral_of_splitSign (digits_of_ofChars? h hread)
    rw [ofChars?_of_integral hn] at hread
    exact ⟨n, hn, (Option.some.inj hread).symm⟩
  · rintro ⟨n, hn, rfl⟩
    exact ofChars?_of_integral hn

end Decimal

namespace Expression

theorem any_floating_iff : (cs.any fun c => c = '.' || c = 'e' || c = 'E') = true ↔ IsFloating cs := by
  simp [IsFloating, or_assoc]

/-- An integer has neither a point nor an exponent. -/
theorem not_isFloating_of_integral (h : Integral cs n) : ¬IsFloating cs := by
  have hdigits {ds : List Char} (hd : Digits ds) : ¬IsFloating ds := by
    rintro ⟨c, hc, hfloat⟩
    obtain ⟨-, -, hpoint, he, hE⟩ := Decimal.isDigit_ne (hd.2 c hc)
    tauto
  have hsign {c : Char} (hc : c = '+' ∨ c = '-') {ds : List Char} (hd : Digits ds) : ¬IsFloating (c :: ds) := by
    rintro ⟨x, hx, hfloat⟩
    rcases List.mem_cons.1 hx with rfl | hx
    · rcases hc with rfl | rfl <;> revert hfloat <;> decide
    · exact hdigits hd ⟨x, hx, hfloat⟩
  cases h with
  | plain hd => exact hdigits hd
  | plus hd => exact hsign (.inl rfl) hd
  | minus hd => exact hsign (.inr rfl) hd

theorem readInteger_bigint_iff :
    readInteger Int64.minValue.toInt Int64.maxValue.toInt cs = .ok n ↔ Integral cs n ∧ IsBigint n := by
  rw [readInteger_eq_ok_iff (by decide) (by decide)]
  have hmin : Int64.minValue.toInt = -2 ^ 63 := rfl
  have hmax : Int64.maxValue.toInt = 2 ^ 63 - 1 := rfl
  rw [hmin, hmax, IsBigint]
  exact and_congr_right fun _ => and_congr_right fun _ => by omega

/-- A number with a point or an exponent is no integer, so that it is a double or nothing. -/
theorem numeral_iff_of_isFloating (h : IsFloating cs) {v : SqlValue} :
    Numeral cs v ↔ ∃ x, Binary.ofChars? .double cs = some x ∧ v = .double x := by
  constructor
  · rintro (⟨hn, -⟩ | ⟨hn, -⟩ | ⟨-, hx⟩)
    · exact absurd h (not_isFloating_of_integral hn)
    · exact absurd h (not_isFloating_of_integral hn)
    · exact ⟨_, hx, rfl⟩
  · rintro ⟨x, hx, rfl⟩
    exact .double h hx

theorem numeral_iff_of_not_isFloating (h : ¬IsFloating cs) {v : SqlValue} : Numeral cs v ↔ ∃ n, Integral cs n ∧
    (IsBigint n ∧ v = .bigint (Int64.ofInt n) ∨ ¬IsBigint n ∧ v = .numeric (Decimal.ofInt n)) := by
  constructor
  · rintro (⟨hn, hbig⟩ | ⟨hn, hbig⟩ | ⟨hfloat, -⟩)
    · exact ⟨_, hn, .inl ⟨hbig, rfl⟩⟩
    · exact ⟨_, hn, .inr ⟨hbig, rfl⟩⟩
    · exact absurd hfloat h
  · rintro ⟨n, hn, ⟨hbig, rfl⟩ | ⟨hbig, rfl⟩⟩
    · exact .bigint hn hbig
    · exact .numeric hn hbig

/-- A text is written for one integer only. -/
theorem integral_inj {n' : ℤ} (h : Integral cs n) (h' : Integral cs n') : n = n' := by
  cases h with
  | plain hd =>
    cases h' with
    | plain => rfl
    | plus => exact absurd (hd.2 _ List.mem_cons_self) (by decide)
    | minus => exact absurd (hd.2 _ List.mem_cons_self) (by decide)
  | plus hd =>
    rw [integral_plus_iff] at h'
    exact h'.2
  | minus hd =>
    rw [integral_minus_iff] at h'
    exact h'.2

/-- **The reader of numbers accepts the numerals.** -/
theorem numberLiteral_eq_ok_iff {e : Expression} :
    numberLiteral cs = .ok e ↔ ∃ v, Numeral cs v ∧ e = .literal v := by
  unfold numberLiteral
  dsimp only
  split_ifs with hfloat
  · rw [any_floating_iff] at hfloat
    simp only [numeral_iff_of_isFloating hfloat]
    cases Binary.ofChars? .double cs <;> simp [eq_comm]
  · rw [any_floating_iff] at hfloat
    simp only [numeral_iff_of_not_isFloating hfloat]
    split
    · rename_i n hn
      obtain ⟨hn, hbig⟩ := readInteger_bigint_iff.1 hn
      constructor
      · intro h
        exact ⟨_, ⟨n, hn, .inl ⟨hbig, rfl⟩⟩, (Except.ok.inj h).symm⟩
      · rintro ⟨v, ⟨n', hn', hv⟩, rfl⟩
        obtain rfl := integral_inj hn hn'
        rcases hv with ⟨-, rfl⟩ | ⟨hbig', -⟩
        · rfl
        · exact absurd hbig hbig'
    · rename_i fault hfault
      have hbig {n : ℤ} (hn : Integral cs n) : ¬IsBigint n := by
        intro hbig
        rw [readInteger_bigint_iff.2 ⟨hn, hbig⟩] at hfault
        cases hfault
      constructor
      · intro h
        cases hd : Decimal.ofChars? cs with
        | none =>
          rw [hd] at h
          cases h
        | some d =>
          rw [hd] at h
          cases h
          obtain ⟨n, hn, rfl⟩ := (Decimal.ofChars?_eq_some_iff_integral hfloat).1 hd
          exact ⟨_, ⟨n, hn, .inr ⟨hbig hn, rfl⟩⟩, rfl⟩
      · rintro ⟨v, ⟨n, hn, hv⟩, rfl⟩
        rw [Decimal.ofChars?_of_integral hn]
        rcases hv with ⟨hbig', -⟩ | ⟨-, rfl⟩
        · exact absurd hbig' (hbig hn)
        · rfl

/-- **The decimal of a written integer has exactly its value.** -/
theorem value_ofInt_of_integral (h : Integral cs n) (hlength : cs.length ≤ maxExponent) :
    (Decimal.ofInt n).value = n := by
  have hlt {ds : List Char} (hd : Digits ds) : Nat.ofDigitChars 10 ds 0 < 10 ^ ds.length := by
    simpa using ofDigitChars_lt hd.2 0
  cases h with
  | plain hd => exact Decimal.value_ofInt (by simpa using hlt hd) hlength
  | plus hd =>
    rw [List.length_cons] at hlength
    exact Decimal.value_ofInt (by simpa using hlt hd) (by omega)
  | minus hd =>
    rw [List.length_cons] at hlength
    exact Decimal.value_ofInt (by simpa using hlt hd) (by omega)

end Expression

end SqlJson
