import SqlJson.Proofs.Decimal.Machine

/-!
# The stored form of decimals

A machine reads a decimal as it should: what it puts together is the stored form of the decimal that the text denotes,
and nothing goes wrong on the way. This takes two things. The digits of the stored form are those of the text without
the zeros at both ends, which are also the digits of the coefficient. And no count of digits leaves the range of 64
bits, as there are no more of them than characters.

* `Stored.of_injective`: the stored form settles the decimal.
* `Stored.ofParts_eq`: the stored form of digits and an exponent.
* `Stored.parse?_eq`: **reading**.
* `Storable`, `storable_of_ofChars?`: what is known of decimals that are read from texts of less than `2 ^ 62`
  characters.
-/

namespace SqlJson.Decimal

variable {negative : Bool} {cs ds : List Char} {c : Char} {d : Decimal} {e n : ℤ} {v : ℕ}

/-! ## Digits -/

theorem digitChar_digit (h : c.isDigit) : (c.toNat - '0'.toNat).digitChar = c := by
  have hle := Text.digit_le_nine h
  have hc := Char.isDigit_iff_toNat.1 h
  have h0 : '0'.toNat = 48 := rfl
  apply Char.toNat_inj.1
  rw [Nat.toNat_digitChar_of_lt_ten (by omega)]
  omega

/-- **Digits that do not begin with a zero** are the digits of their value. -/
theorem toDigits_ofDigitChars (hd : ∀ c ∈ ds, c.isDigit) (hne : ds ≠ []) (hhead : ds.head? ≠ some '0') :
    Nat.toDigits 10 (Nat.ofDigitChars 10 ds 0) = ds := by
  induction ds using List.reverseRecOn with
  | nil => exact absurd rfl hne
  | append_singleton init c ih =>
    obtain ⟨hinit, hc⟩ := List.forall_mem_append.1 hd
    have hdigit := hc c List.mem_cons_self
    have hle := Text.digit_le_nine hdigit
    rw [Nat.ofDigitChars_append, Nat.ofDigitChars_cons, Nat.ofDigitChars_nil]
    rcases eq_or_ne init [] with rfl | hne'
    · rw [Nat.ofDigitChars_nil, Nat.mul_zero, Nat.zero_add, Nat.toDigits_of_lt_base (by omega), digitChar_digit hdigit]
      rfl
    · rw [List.head?_append_of_ne_nil _ hne'] at hhead
      have hback := ih hinit hne' hhead
      -- zero has a digit zero at its front
      have hpos : Nat.ofDigitChars 10 init 0 ≠ 0 := by
        intro h0
        rw [h0] at hback
        exact hhead (by rw [← hback]; rfl)
      rw [Nat.toDigits_of_base_le (by norm_num) (by omega), Nat.mul_add_div (by norm_num), Nat.mul_add_mod,
        Nat.div_eq_of_lt (by omega), Nat.mod_eq_of_lt (by omega), add_zero, hback, digitChar_digit hdigit]

/-- The digits of a decimal with given digits. -/
theorem digits_ofParts (hd : ∀ c ∈ ds, c.isDigit) :
    (ofParts negative (Nat.ofDigitChars 10 ds 0) e).digits = significant ds := by
  rw [ofDigitChars_significant]
  rcases eq_or_ne (significant ds) [] with hnil | hne
  · rw [hnil, Nat.ofDigitChars_nil, Nat.zero_mul, ofParts_zero]
    rfl
  · have hmod := mod_significant hd hne
    rw [ofParts_mul_pow hmod, digits_of_ne_zero (ne_zero_of_mod_ne hmod)]
    exact toDigits_ofDigitChars (fun c hc => hd c (mem_of_mem_significant hc)) hne (head?_significant ds)

theorem length_le_of_point {point : List Char} (h : Point point ds) : ds.length ≤ point.length := by
  cases h with
  | absent => exact le_rfl
  | present => exact Nat.le_succ _

namespace Stored

theorem of_injective {d' : Decimal} (h : of d = of d') : d = d' := by
  rw [of, of, mk.injEq] at h
  obtain ⟨hnegative, hdigits, hexponent⟩ := h
  have hcoefficient : d.coefficient = d'.coefficient := by
    rw [← ofDigitChars_digits, ← ofDigitChars_digits (d := d'), hdigits]
  cases d
  cases d'
  simp_all

/-! ## Reading -/

/-- Digits are counted without overflow, as long as there are no more characters than numbers left. -/
theorem takeDigits_eq (h0 : 0 ≤ n) (h : n + cs.length ≤ maxExponent) : takeDigits cs n =
    .ok (cs.takeWhile Char.isDigit, n + (cs.takeWhile Char.isDigit).length, cs.dropWhile Char.isDigit) := by
  induction cs generalizing n with
  | nil => simp [takeDigits]
  | cons c cs ih =>
    rw [List.length_cons] at h
    unfold takeDigits
    by_cases hc : c.isDigit
    · have hcount : int64 (n + 1) = .ok (n + 1) := by
        apply int64_of_mem
        · unfold minExponent
          omega
        · omega
      rw [if_pos hc, hcount, ok_bind, ih (by omega) (by omega), ok_bind, List.takeWhile_cons_of_pos hc,
        List.dropWhile_cons_of_pos hc, List.length_cons]
      simp only [pure_eq_ok, Nat.cast_succ]
      congr 3
      omega
    · rw [if_neg hc, List.takeWhile_cons_of_neg hc, List.dropWhile_cons_of_neg hc]
      simp

theorem takeFraction_eq (h : cs.length ≤ maxExponent) :
    takeFraction cs = .ok ((splitFraction cs).1, ((splitFraction cs).1.length : ℤ), (splitFraction cs).2) := by
  unfold splitFraction
  split
  · rename_i rest
    rw [List.length_cons] at h
    rw [takeFraction, takeDigits_eq le_rfl (by omega), zero_add]
  · rename_i hpoint
    rw [takeFraction]
    · rfl
    · exact hpoint

/-- Saturating arithmetic comes to one saturation of the result. -/
theorem takeExponent_eq : takeExponent cs (min maxExponent v) =
    .ok (min maxExponent (Nat.ofDigitChars 10 (cs.takeWhile Char.isDigit) v), cs.dropWhile Char.isDigit) := by
  induction cs generalizing v with
  | nil => rfl
  | cons c cs ih =>
    unfold takeExponent
    by_cases hc : c.isDigit
    · have hstep : clampExponent (clampExponent (10 * min maxExponent v) + (c.toNat - '0'.toNat : ℕ)) =
          min maxExponent (10 * v + (c.toNat - '0'.toNat) : ℕ) := by
        unfold clampExponent minExponent maxExponent
        omega
      rw [if_pos hc, digitValue_of_isDigit hc, ok_bind, hstep, ih, List.takeWhile_cons_of_pos hc,
        List.dropWhile_cons_of_pos hc, Nat.ofDigitChars_cons]
    · rw [if_neg hc, List.takeWhile_cons_of_neg hc, List.dropWhile_cons_of_neg hc]
      rfl

/-- **Digits up to the end of a text**, and nothing else, are an exponent. Its negation is in range, as its absolute
value sticks to the greatest exponent. -/
theorem readExponent?_eq (cs : List Char) : readExponent? cs = .ok (Decimal.readExponent? cs) := by
  cases cs with
  | nil => rfl
  | cons c cs =>
    rw [readExponent?, Decimal.readExponent?]
    split_ifs with hc
    swap
    · rfl
    obtain ⟨negative, digits⟩ := splitSign cs
    have hsplit := List.takeWhile_append_dropWhile (p := Char.isDigit) (l := digits)
    have hrun : ∀ c ∈ digits.takeWhile Char.isDigit, c.isDigit := fun c hc => List.mem_takeWhile_imp hc
    have hzero : (0 : ℤ) = min maxExponent (0 : ℕ) := by decide
    dsimp only
    rw [hzero, takeExponent_eq, ok_bind]
    have hstop := stops_dropWhile (p := Char.isDigit) digits
    generalize digits.takeWhile Char.isDigit = run at hsplit hrun ⊢
    generalize digits.dropWhile Char.isDigit = rest at hsplit hstop ⊢
    subst hsplit
    have hsign : int64 (-min maxExponent (Nat.ofDigitChars 10 run 0)) =
        .ok (-min maxExponent (Nat.ofDigitChars 10 run 0)) := by
      apply int64_of_mem
      · unfold minExponent maxExponent
        omega
      · unfold maxExponent
        omega
    dsimp only
    rw [withSign_of_ok negative hsign, ok_bind]
    cases rest with
    | nil =>
      rw [List.append_nil, List.all_eq_true.2 hrun]
      rcases eq_or_ne run [] with rfl | hne
      · rfl
      · have hlen : ¬ ([] : List Char).length = run.length := by simpa [eq_comm] using hne
        have hread : ¬ (run = [] ∨ (!true) = true) := by simpa using hne
        rw [if_neg hlen, if_neg hread, if_pos rfl]
        rfl
    | cons c rest =>
      have hother : run ++ c :: rest = [] ∨ (!(run ++ c :: rest).all Char.isDigit) = true := by
        simp [stops_cons.1 hstop]
      rw [if_pos hother, if_neg (List.cons_ne_nil c rest), ite_self]
      rfl

/-- **The stored form of digits and an exponent.** The zeros at the end are counted as the characters that go. -/
theorem ofParts_eq (hd : ∀ c ∈ ds, c.isDigit) (h : ds.length ≤ maxExponent) :
    ofParts negative ds e = .ok (of (Decimal.ofParts negative (Nat.ofDigitChars 10 ds 0) e)) := by
  have hdigits : (Decimal.ofParts negative (Nat.ofDigitChars 10 ds 0) e).digits = significant ds := digits_ofParts hd
  rw [ofDigitChars_significant] at hdigits ⊢
  unfold ofParts
  dsimp only
  split_ifs with hnil
  · rw [hnil, Nat.ofDigitChars_nil, Nat.zero_mul, ofParts_zero]
    rfl
  · have hgone : (ds.dropWhile (· = '0')).length - (significant ds).length = (droppedZeros ds : ℤ) := by
      rw [← significant_append, List.length_append, List.length_replicate]
      omega
    have hcount : int64 (droppedZeros ds) = .ok (droppedZeros ds) := by
      have hle := droppedZeros_le ds
      apply int64_of_mem
      · unfold minExponent
        omega
      · omega
    rw [hgone, toIndex_natCast, ok_bind, hcount, ok_bind]
    rw [ofParts_mul_pow (mod_significant hd hnil)] at hdigits ⊢
    rw [of, hdigits]
    rfl

/-- **Reading** goes without a fault and gives the stored form of the decimal. -/
theorem parse?_eq (h : cs.length ≤ maxExponent) : parse? cs = .ok ((ofChars? cs).map of) := by
  obtain ⟨sign, -, hsign⟩ := exists_sign cs
  have hlength := congrArg List.length hsign
  unfold parse? ofChars?
  generalize splitSign cs = split at hlength ⊢
  obtain ⟨negative, rest⟩ := split
  have hsplit := congrArg List.length (List.takeWhile_append_dropWhile (p := Char.isDigit) (l := rest))
  have hwhole : ∀ c ∈ rest.takeWhile Char.isDigit, c.isDigit := fun c hc => List.mem_takeWhile_imp hc
  obtain ⟨point, hpoint, hfraction, hrest⟩ := exists_point (rest.dropWhile Char.isDigit)
  rw [List.length_append] at hlength hsplit
  dsimp only at hlength ⊢
  rw [takeDigits_eq le_rfl (by omega), ok_bind]
  dsimp only
  rw [takeFraction_eq (by omega), ok_bind]
  have hpointLength := length_le_of_point hpoint
  have hrestLength := congrArg List.length hrest
  rw [List.length_append] at hrestLength
  generalize splitFraction (rest.dropWhile Char.isDigit) = split at *
  obtain ⟨fraction, tail⟩ := split
  dsimp only at *
  generalize rest.takeWhile Char.isDigit = whole at *
  have hnone : ((0 + whole.length : ℤ) = 0 ∧ (fraction.length : ℤ) = 0) ↔ whole = [] ∧ fraction = [] := by
    rw [← List.length_eq_zero_iff, ← List.length_eq_zero_iff]
    omega
  simp only [hnone]
  split_ifs with hempty
  · rfl
  · rw [readExponent?_eq, ok_bind]
    cases Decimal.readExponent? tail with
    | none => rfl
    | some exponent =>
      have hdigits : ∀ c ∈ whole ++ fraction, c.isDigit := List.forall_mem_append.2 ⟨hwhole, hfraction⟩
      have hfew : ((whole ++ fraction).length : ℤ) ≤ maxExponent := by
        rw [List.length_append]
        omega
      dsimp only
      rw [ofParts_eq hdigits hfew, ok_bind]
      rfl

end Stored

/-! ## What is read -/

/-- **A decimal that can be stored**: normal, and with fewer than `2 ^ 62` digits. -/
structure Storable (d : Decimal) : Prop where
  normal : d.IsNormal
  few : d.digits.length < 2 ^ 62

/-- There are no more digits than characters. -/
theorem storable_of_ofChars? (h : ofChars? cs = some d) (hlength : cs.length < 2 ^ 62) : d.Storable := by
  obtain ⟨p, hp⟩ := exists_spelling h
  have hd : d = _ := Option.some_inj.1 (h.symm.trans (ofChars?_of_spelling hp))
  refine ⟨ofChars?_isNormal h, ?_⟩
  cases hp with
  | @mk sign whole point fraction exponent negative e hs hw hp hf hne he =>
    have hpoint := length_le_of_point hp
    have hdigits : ∀ c ∈ whole ++ fraction, c.isDigit := List.forall_mem_append.2 ⟨hw, hf⟩
    have hkept : (significant (whole ++ fraction)).length ≤ (whole ++ fraction).length :=
      (List.rdropWhile_prefix _ _).length_le.trans (List.dropWhile_sublist _).length_le
    rw [hd, digits_ofParts hdigits]
    simp only [List.length_append] at hkept hlength
    omega

end SqlJson.Decimal
