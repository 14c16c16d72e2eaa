import SqlJson.Decimal.Writer
import SqlJson.Proofs.Json.NumberText

/-!
# Decimal texts read back

Every text a decimal is written as is a number of JSON, and reading it gives the decimal. What has
to be shown for each of the four shapes is where the point stands: the digits are the coefficient,
with zeros before or after it, and the point and the exponent make up for the rest.

* `WrittenAs`: a number of the grammar that is read as a given decimal.
* `writtenAs_positional`, `writtenAs_scientific`: the two ways to write a decimal.
* `writtenAs_canonical`: the canonical text.
-/

namespace SqlJson.Decimal

open Json.Grammar Json

variable {d : Decimal} {negative : Bool} {whole fraction exponent ds : List Char} {e : ℤ} {n : ℕ}

/-- A text is a number of the grammar, and it is read as `d`. -/
def WrittenAs (d : Decimal) (cs : List Char) : Prop := Literal cs ∧ ofChars? cs = some d

/-- The parts of a text settle what it is read as. -/
theorem writtenAs_parts (hw : Whole whole) (hf : Fraction fraction) (hp : Point fraction ds)
    (he : Exponent exponent) (hexp : readExponent? exponent = some e)
    (hval : ofParts d.negative (Nat.ofDigitChars 10 (whole ++ ds) 0) (clampExponent (e - ds.length)) = d) :
    WrittenAs d (d.signText ++ (whole ++ fraction ++ exponent)) := by
  have hwd := digits_of_whole hw
  have hd := digits_of_point hf hp
  constructor
  · have hs : d.signText = [] ∨ d.signText = ['-'] := exists_signChars_iff.1 ⟨d.negative, rfl⟩
    simpa only [List.append_assoc] using Literal.mk hs hw hf he
  · have h := ofChars?_parts (sign_signChars d.negative) hwd.2 hp hd (by simp [hwd.1]) (stops_exponent he)
    rw [hexp, Option.map_some, hval] at h
    exact h

/-! ## Digits -/

/-- The digits of a positive number begin with no zero. -/
theorem head_toDigits_ne (hn : n ≠ 0) : ∃ c cs, Nat.toDigits 10 n = c :: cs ∧ c ≠ '0' := by
  induction n using Nat.strong_induction_on with
  | _ n ih =>
    rcases Nat.lt_or_ge n 10 with hlt | hge
    · refine ⟨n.digitChar, [], Nat.toDigits_of_lt_base hlt, ?_⟩
      interval_cases n <;> first | exact absurd rfl hn | decide
    · obtain ⟨c, cs, hcs, hc⟩ := ih (n / 10) (by omega) (by omega)
      refine ⟨c, cs ++ [(n % 10).digitChar], ?_, hc⟩
      rw [Nat.toDigits_of_base_le (by norm_num) hge, hcs, List.cons_append]

theorem isDigit_replicate (n : ℕ) : ∀ c ∈ List.replicate n '0', c.isDigit := by
  intro c hc
  rw [(List.mem_replicate.1 hc).2]
  decide

theorem ofDigitChars_zeros (n : ℕ) (cs : List Char) :
    Nat.ofDigitChars 10 (List.replicate n '0' ++ cs) 0 = Nat.ofDigitChars 10 cs 0 := by
  rw [Nat.ofDigitChars_append, Nat.ofDigitChars_replicate_zero, Nat.mul_zero]

theorem ofDigitChars_digits_zeros (d : Decimal) (n : ℕ) :
    Nat.ofDigitChars 10 (d.digits ++ List.replicate n '0') 0 = d.coefficient * 10 ^ n := by
  rw [Nat.ofDigitChars_append, Nat.ofDigitChars_replicate_zero, ofDigitChars_digits, mul_comm]

/-- The digits before a point that stands behind the first digit. -/
theorem whole_take (h0 : d.coefficient ≠ 0) (hn : 0 < n) (zeros : ℕ) :
    Whole (d.digits.take n ++ List.replicate zeros '0') := by
  obtain ⟨c, cs, hcs, hc⟩ := head_toDigits_ne h0
  obtain ⟨n, rfl⟩ : ∃ m, n = m + 1 := ⟨n - 1, by omega⟩
  rw [← digits_of_ne_zero h0] at hcs
  rw [hcs, List.take_succ_cons, List.cons_append]
  refine .digits ⟨by simp, ?_⟩ hc
  intro x hx
  rcases List.mem_cons.1 hx with rfl | hx
  · exact isDigit_of_mem_digits (by rw [hcs]; simp)
  · rcases List.mem_append.1 hx with hx | hx
    · exact isDigit_of_mem_digits (by rw [hcs]; exact List.mem_cons_of_mem _ (List.mem_of_mem_take hx))
    · exact isDigit_replicate zeros x hx

theorem digits_drop (hn : n < d.digits.length) : Digits (d.digits.drop n) := by
  refine ⟨fun h => ?_, fun c hc => isDigit_of_mem_digits (List.mem_of_mem_drop hc)⟩
  have := List.drop_eq_nil_iff.1 h
  omega

/-! ## The shapes of a text -/

/-- A normal decimal is read when the digits are its coefficient and the places behind the point
and the exponent add up. -/
theorem ofParts_eq (hd : d.IsNormal) (he : e - n = d.exponent) :
    ofParts d.negative d.coefficient (clampExponent (e - n)) = d := by
  have hmem : minExponent ≤ d.exponent ∧ d.exponent ≤ maxExponent := by
    rcases hd with rfl | ⟨-, h₁, h₂⟩
    · decide
    · exact ⟨h₁, h₂⟩
  rw [he, clampExponent_of_mem hmem.1 hmem.2, ofParts_of_isNormal hd]

/-- **A positional text reads back.** -/
theorem writtenAs_positional (hd : d.IsNormal) (h0 : d.coefficient ≠ 0) :
    WrittenAs d (d.signText ++ positional d.digits d.exponent) := by
  have hpos := length_digits_pos h0
  unfold positional
  simp only
  split_ifs with hsmall hlarge
  -- the point stands before the digits, with zeros between
  · have hds : Digits (List.replicate (-(d.digits.length + d.exponent)).toNat '0' ++ d.digits) := by
      refine ⟨List.append_ne_nil_of_right_ne_nil _ (List.ne_nil_of_length_pos hpos), ?_⟩
      intro c hc
      rcases List.mem_append.1 hc with hc | hc
      · exact isDigit_replicate _ c hc
      · exact isDigit_of_mem_digits hc
    have h := writtenAs_parts (d := d) (e := 0) .zero (.present hds) .present .absent rfl (by
      rw [List.singleton_append, Nat.ofDigitChars_cons, Nat.mul_zero, Nat.zero_add, Nat.sub_self,
        ofDigitChars_zeros, ofDigitChars_digits]
      apply ofParts_eq hd
      rw [List.length_append, List.length_replicate]
      omega)
    simpa using h
  -- the point stands behind the digits, with zeros between
  · obtain ⟨k, hk⟩ : ∃ k : ℕ, d.exponent = k := ⟨d.exponent.toNat, by omega⟩
    have hzeros : (d.digits.length + d.exponent - d.digits.length).toNat = k := by omega
    have hw := whole_take h0 hpos k
    rw [List.take_length] at hw
    have h := writtenAs_parts (d := d) (e := 0) hw .absent .absent .absent rfl (by
      have hshift := ofParts_shift hd h0 k
      rw [hk, sub_self] at hshift
      rw [List.append_nil, ofDigitChars_digits_zeros]
      exact hshift)
    rw [hzeros]
    simpa using h
  -- the point stands among the digits
  · have hp : (d.digits.length + d.exponent).toNat < d.digits.length := by omega
    have hw := whole_take h0 (n := (d.digits.length + d.exponent).toNat) (by omega) 0
    rw [List.replicate_zero, List.append_nil] at hw
    have h := writtenAs_parts (d := d) (e := 0) hw (.present (digits_drop hp)) .present .absent rfl (by
      rw [List.take_append_drop, ofDigitChars_digits]
      apply ofParts_eq hd
      rw [List.length_drop]
      omega)
    simpa using h

/-- A decimal whose first digit stands within the range of exponents, so that no exponent of its
texts sticks to an end of the range. -/
def InScale (d : Decimal) : Prop :=
  -maxExponent < d.digits.length + d.exponent ∧ d.digits.length + d.exponent ≤ maxExponent

instance (d : Decimal) : Decidable d.InScale := inferInstanceAs (Decidable (_ ∧ _))

/-- The exponent of a scientific text has two digits or more behind its sign. -/
theorem exponentText_digits (e : ℤ) : ∃ plus ds, exponentText e = plus :: ds ∧
    plus = (if e < 0 then '-' else '+') ∧ Digits ds ∧ 2 ≤ ds.length ∧ Nat.ofDigitChars 10 ds 0 = e.natAbs := by
  have hdigit : ∀ c ∈ Nat.toDigits 10 e.natAbs, c.isDigit := fun c hc =>
    Nat.isDigit_of_mem_toDigits (by norm_num) (by norm_num) hc
  have hpos : 0 < (Nat.toDigits 10 e.natAbs).length := Nat.length_toDigits_pos
  refine ⟨_, _, rfl, rfl, ?_⟩
  split_ifs with hten
  · refine ⟨⟨by simp, ?_⟩, ?_, ?_⟩
    · intro c hc
      rcases List.mem_cons.1 hc with rfl | hc
      · decide
      · exact hdigit c hc
    · rw [List.length_cons]
      omega
    · rw [Nat.ofDigitChars_cons, Nat.mul_zero, Nat.zero_add, Nat.sub_self, Nat.ofDigitChars_ten_toDigits]
  · refine ⟨⟨List.ne_nil_of_length_pos hpos, hdigit⟩, ?_, Nat.ofDigitChars_ten_toDigits⟩
    have hle : (Nat.toDigits 10 e.natAbs).length ≤ 1 ↔ e.natAbs < 10 ^ 1 :=
      Nat.length_toDigits_le_iff (by norm_num) one_pos
    omega

/-- **A scientific text reads back.** -/
theorem writtenAs_scientific (hd : d.IsNormal) (h0 : d.coefficient ≠ 0) (hs : d.InScale) :
    WrittenAs d (d.signText ++ scientific d.digits (d.digits.length + d.exponent - 1)) := by
  have hpos := length_digits_pos h0
  obtain ⟨hlow, hhigh⟩ := hs
  set e := d.digits.length + d.exponent - 1 with he
  obtain ⟨plus, xs, hexp, hplus, hxs, -, hval⟩ := exponentText_digits e
  have hsign : Sign [plus] (e < 0) := by
    rw [hplus]
    split_ifs with hneg
    · simpa [hneg] using Sign.minus
    · simpa [hneg] using Sign.plus
  have hexponent : Exponent ('e' :: [plus] ++ xs) := by
    refine .present (.inl rfl) (.inr ?_) hxs
    rw [hplus]
    split_ifs <;> simp
  have hread : readExponent? ('e' :: ([plus] ++ xs)) = some e := by
    -- a decimal in scale has an exponent that the reader does not cut off
    have habs : min maxExponent (e.natAbs : ℤ) = e.natAbs := by
      unfold maxExponent at *
      omega
    rw [readExponent?_parts (.inl rfl) hsign hxs.1 hxs.2, hval, habs]
    simp only [decide_eq_true_eq]
    split_ifs <;> congr 1 <;> omega
  have hw := whole_take h0 (n := 1) one_pos 0
  rw [List.replicate_zero, List.append_nil] at hw
  unfold scientific
  rw [hexp]
  split_ifs with hone
  · have htake : d.digits.take 1 = d.digits := List.take_of_length_le hone
    have h := writtenAs_parts hw .absent .absent hexponent hread (by
      rw [List.append_nil, htake, ofDigitChars_digits]
      apply ofParts_eq hd
      rw [List.length_nil]
      omega)
    simpa using h
  · have hds : Digits (d.digits.drop 1) := digits_drop (by omega)
    have h := writtenAs_parts (d := d) hw (.present hds) .present hexponent hread (by
      rw [List.take_append_drop, ofDigitChars_digits]
      apply ofParts_eq hd
      rw [List.length_drop]
      omega)
    simpa using h

/-- **The canonical text reads back.** -/
theorem writtenAs_canonical (hd : d.IsNormal) (hs : d.InScale) : WrittenAs d d.canonicalChars := by
  unfold canonicalChars
  split_ifs with hz
  · obtain rfl : d = zero := by
      rcases hd with rfl | ⟨hc, -, -⟩
      · rfl
      · rw [isZero_iff.1 hz] at hc
        simp at hc
    exact writtenAs_parts (e := 0) .zero .absent .absent .absent rfl rfl
  · have h0 : d.coefficient ≠ 0 := fun h => hz (isZero_iff.2 h)
    have hclamp : d.integerDigits = d.digits.length + d.exponent :=
      clampExponent_of_mem (by have := hs.1; unfold minExponent maxExponent at *; omega) hs.2
    simp only [hclamp]
    split_ifs
    · exact writtenAs_positional hd h0
    · exact writtenAs_scientific hd h0 hs

end SqlJson.Decimal
