import SqlJson.Proofs.Binary.Shortest
import SqlJson.Proofs.Decimal.HalfAway
import SqlJson.Proofs.Decimal.Shapes
import SqlJson.Proofs.Decimal.Storage
import SqlJson.Proofs.Number.Rereading
import SqlJson.Proofs.Text.Bytes

/-!
# Decimals stay in range

Exponents stick to the ends of 64 bits and then meet unguarded arithmetic. It does not go wrong, for three reasons. A
decimal other than zero has a digit, so that the count of digits before the point is never the least number. Wherever
the point is looked for among the digits, its place is known not to stick to an end. And once an integer is known to
have no more than 38 digits, none of the steps that put it together overflows, and fewer than 38 zeros are left to add.

* `Stored.toInt?_of`, `Stored.roundHalfAway?_of`: integers.
* `Stored.toBinary_of`, `Stored.lossless?_of`: floating-point numbers.
* `Stored.canonicalChars_of`, `Stored.plainChars_of`: texts.
* `Stored.runs_without_fault`: **all of them**, for every text of less than `2 ^ 62` bytes.
-/

namespace SqlJson.Decimal

variable {cs : List Char} {d : Decimal} {k rounds v : ℕ} {z : ℤ} {w : Width} {x : Binary w}

theorem IsNormal.exponent_mem (hd : d.IsNormal) : minExponent ≤ d.exponent ∧ d.exponent ≤ maxExponent :=
  (isNormal_iff_digits.1 hd).2.2.2

/-- The digits before the point are never as few as can be, since there is a digit. -/
theorem Storable.integerDigits_mem (hd : d.Storable) (h0 : d.coefficient ≠ 0) :
    minExponent < d.integerDigits ∧ d.integerDigits ≤ maxExponent := by
  have hpos := length_digits_pos h0
  have hexponent := hd.normal.exponent_mem
  unfold integerDigits clampExponent minExponent maxExponent at *
  omega

namespace Stored

theorem isZero_of (d : Decimal) : (of d).isZero = d.isZero := by
  have hiff : d.digits = [] ↔ d.coefficient = 0 := by
    constructor
    · intro hnil
      rw [← ofDigitChars_digits (d := d), hnil, Nat.ofDigitChars_nil]
    · intro h0
      exact if_pos h0
  simp only [isZero, of, Decimal.isZero, hiff]

theorem isInteger_of (d : Decimal) : (of d).isInteger = d.isInteger := by
  rw [isInteger, isZero_of, Decimal.isInteger]
  rfl

theorem int64_length (hd : d.Storable) : int64 d.digits.length = .ok (d.digits.length : ℤ) := by
  have hfew := hd.few
  apply int64_of_mem
  · unfold minExponent
    omega
  · unfold maxExponent
    omega

theorem integerDigits_of (hd : d.Storable) : (of d).integerDigits = .ok d.integerDigits := by
  unfold integerDigits
  rw [show (of d).digits = d.digits from rfl, int64_length hd, ok_bind]
  rfl

/-! ## Integers -/

/-- Digits are put behind a number without overflow if the result is in range. -/
theorem accumulate_eq (hd : ∀ c ∈ cs, c.isDigit) (h : Nat.ofDigitChars 10 cs v ≤ maxInt128) :
    accumulate cs v = .ok (Nat.ofDigitChars 10 cs v : ℤ) := by
  induction cs generalizing v with
  | nil => rfl
  | cons c cs ih =>
    obtain ⟨hc, hcs⟩ := List.forall_mem_cons.1 hd
    rw [Nat.ofDigitChars_cons] at h ⊢
    have hmono := Text.le_ofDigitChars cs (10 * v + (c.toNat - '0'.toNat))
    have htenfold : int128 (10 * (v : ℤ)) = .ok (10 * (v : ℤ)) := int128_of_natAbs_le (by omega)
    have hsum : int128 (10 * (v : ℤ) + (c.toNat - '0'.toNat : ℕ)) = .ok (10 * (v : ℤ) + (c.toNat - '0'.toNat : ℕ)) :=
      int128_of_natAbs_le (by omega)
    rw [accumulate, htenfold, ok_bind, digitValue_of_isDigit hc, ok_bind, hsum, ok_bind]
    exact_mod_cast ih hcs h

theorem accumulate_zero (hd : ∀ c ∈ cs, c.isDigit) (h : Nat.ofDigitChars 10 cs 0 ≤ maxInt128) :
    accumulate cs 0 = .ok (Nat.ofDigitChars 10 cs 0 : ℤ) := accumulate_eq hd h

/-- No more zeros than rounds are put behind a number without overflow if the result is in range. -/
theorem scale_eq (hk : k ≤ rounds) (h : v * 10 ^ k ≤ maxInt128) : scale rounds k v = .ok (v * 10 ^ k : ℕ) := by
  induction k generalizing rounds v with
  | zero =>
    rw [pow_zero, mul_one]
    cases rounds <;> rfl
  | succ k ih =>
    obtain ⟨rounds, rfl⟩ : ∃ m, rounds = m + 1 := ⟨rounds - 1, by omega⟩
    have hpow : v * 10 ^ (k + 1) = 10 * v * 10 ^ k := by ring
    rw [hpow] at h ⊢
    have hmono : 10 * v * 1 ≤ 10 * v * 10 ^ k := Nat.mul_le_mul_left _ (Nat.one_le_pow _ _ (by norm_num))
    have htenfold : int128 (10 * (v : ℤ)) = .ok (10 * (v : ℤ)) := int128_of_natAbs_le (by omega)
    rw [scale, htenfold, ok_bind]
    exact_mod_cast ih (by omega) h

theorem withSign_of (hv : v ≤ maxInt128) : withSign int128 (of d).negative v = .ok (d.signed v) :=
  withSign_of_ok d.negative (int128_of_natAbs_le (by omega))

/-- **An integer of at most 38 digits ends in at most 37 zeros** behind its significant digits. -/
theorem le_maxRounds (h0 : d.coefficient ≠ 0) (h : d.coefficient * 10 ^ k < 10 ^ 38) :
    k ≤ maxRounds := by
  have hone : 1 * 10 ^ k ≤ d.coefficient * 10 ^ k := Nat.mul_le_mul_right _ (by omega)
  have hpow : (10 : ℕ) ^ k < 10 ^ 38 := by omega
  have hlt := (Nat.pow_lt_pow_iff_right (by norm_num)).1 hpow
  unfold maxRounds
  omega

/-- **The exact integer.** -/
theorem toInt?_of (hd : d.Storable) : (of d).toInt? = .ok d.toInt? := by
  unfold toInt?
  rw [isInteger_of, isZero_of, integerDigits_of hd]
  by_cases hint : d.isInteger = true
  swap
  · rw [Decimal.toInt?, if_pos (by simpa using hint), if_pos (by simpa using hint)]
    rfl
  by_cases hz : d.isZero = true
  · rw [Decimal.toInt?, hint, hz]
    rfl
  have h0 : d.coefficient ≠ 0 := isZero_iff.not.1 hz
  obtain ⟨k, hk⟩ : ∃ k : ℕ, d.exponent = k := by
    simp only [Decimal.isInteger, hz, Bool.false_or, decide_eq_true_eq] at hint
    exact Int.eq_ofNat_of_zero_le hint
  have hguard := maxIntegerDigits_lt_iff h0 hk
  rw [toInt?_eq_ite h0 hk, hint, if_neg (by decide), if_neg hz, ok_bind]
  by_cases hlt : d.coefficient * 10 ^ k < 10 ^ 38
  · have hrange : d.coefficient * 10 ^ k ≤ maxInt128 := le_maxInt128_of_le hlt.le
    have hone : d.coefficient * 1 ≤ d.coefficient * 10 ^ k :=
      Nat.mul_le_mul_left _ (Nat.one_le_pow _ _ (by norm_num))
    have hdigits : accumulate (of d).digits 0 = .ok (d.coefficient : ℤ) := by
      have hvalue : Nat.ofDigitChars 10 d.digits 0 = d.coefficient := ofDigitChars_digits
      have h := accumulate_zero (fun c => isDigit_of_mem_digits) (show Nat.ofDigitChars 10 d.digits 0 ≤ _ by omega)
      rwa [hvalue] at h
    have hzeros : scale maxRounds (of d).exponent.toNat d.coefficient = .ok (d.coefficient * 10 ^ k : ℕ) := by
      rw [show (of d).exponent = d.exponent from rfl, hk, Int.toNat_natCast]
      exact scale_eq (le_maxRounds h0 hlt) hrange
    rw [if_neg (by rw [hguard]; omega), if_pos hlt, hdigits, ok_bind, hzeros, ok_bind, withSign_of hrange]
    rfl
  · rw [if_pos (hguard.2 (by omega)), if_neg hlt]
    rfl

/-! ## Rounding -/

/-- The point of a decimal with digits behind it stands among its digits or before them. -/
theorem splitAtPoint_of (hd : d.Storable) (hint : d.isInteger = false) :
    (of d).splitAtPoint = .ok d.splitAtPoint := by
  have hexponent : d.exponent < 0 := by
    simp only [Decimal.isInteger, Bool.or_eq_false_iff, decide_eq_false_iff_not] at hint
    omega
  have hfew := hd.few
  unfold splitAtPoint Decimal.splitAtPoint
  rw [integerDigits_of hd, ok_bind]
  by_cases hsmall : d.integerDigits ≤ 0
  · rw [if_pos hsmall, if_pos hsmall]
    rfl
  · have hplace : d.integerDigits = (d.integerDigits.toNat : ℕ) := by omega
    have hwithin : d.integerDigits.toNat ≤ d.digits.length := by
      unfold Decimal.integerDigits clampExponent minExponent maxExponent
      omega
    rw [if_neg hsmall, if_neg hsmall]
    conv_lhs => rw [hplace]
    rw [toIndex_natCast, ok_bind, show (of d).digits = d.digits from rfl, cut_of_le hwithin, ok_bind]
    rfl

theorem isDigit_of_mem_splitAtPoint {c : Char} (h : c ∈ d.splitAtPoint.1) : c.isDigit := by
  unfold Decimal.splitAtPoint at h
  split at h
  · exact absurd h List.not_mem_nil
  · exact isDigit_of_mem_digits (List.mem_of_mem_take h)

/-- **Rounding half away from zero.** -/
theorem roundHalfAway?_of (hd : d.Storable) : (of d).roundHalfAway? = .ok d.roundHalfAway? := by
  unfold roundHalfAway? Decimal.roundHalfAway?
  rw [isInteger_of]
  by_cases hint : d.isInteger = true
  · rw [if_pos hint, if_pos hint, toInt?_of hd]
  rw [if_neg hint, if_neg hint, splitAtPoint_of hd (by simpa using hint), ok_bind]
  have hdigit : ∀ c ∈ d.splitAtPoint.1, c.isDigit := fun c => isDigit_of_mem_splitAtPoint
  generalize d.splitAtPoint = split at hdigit ⊢
  obtain ⟨head, next⟩ := split
  dsimp only at hdigit ⊢
  by_cases hmany : maxIntegerDigits < head.length
  · rw [if_pos hmany, if_pos hmany]
    rfl
  · rw [if_neg hmany, if_neg hmany]
    have hvalue : Nat.ofDigitChars 10 head 0 < 10 ^ maxIntegerDigits :=
      Text.ofDigitChars_lt_pow hdigit (not_lt.1 hmany)
    have hrange := le_maxInt128_of_le hvalue.le
    have hnext := le_maxInt128_of_le (Nat.succ_le_of_lt hvalue)
    rw [accumulate?_eq _ (Nat.zero_le _), checked?_of_le hrange, Option.bind_eq_bind, Option.bind_some,
      accumulate_zero hdigit hrange, ok_bind]
    generalize Nat.ofDigitChars 10 head 0 = v at hrange hnext ⊢
    unfold roundBy
    split_ifs
    · have hsum : int128 ((v : ℤ) + 1) = .ok ((v + 1 : ℕ) : ℤ) := int128_of_natAbs_le (by omega)
      rw [hsum, ok_bind, withSign_of hnext, checked?_of_le hnext]
      rfl
    · rw [pure_eq_ok, ok_bind, withSign_of hrange]
      rfl

/-! ## Floating-point numbers -/

/-- **The nearest floating-point number.** -/
theorem toBinary_of (hd : d.Storable) (w : Width) : (of d).toBinary w = .ok (Binary.ofDecimal w d) := by
  unfold toBinary Binary.ofDecimal
  rw [isZero_of, integerDigits_of hd, ok_bind]
  by_cases hz : d.isZero = true
  · rw [if_pos hz, if_pos hz]
    rfl
  rw [if_neg hz, if_neg hz, show (of d).digits = d.digits from rfl, ofDigitChars_digits]
  split_ifs <;> rfl

/-- **What a printer of shortest texts is relied on for**: its text is read as the shortest decimal, and it is not
long. -/
structure PrintsShortest (print : ∀ w : Width, Binary w → String) : Prop where
  reads : ∀ w x d, Binary.shortest? x = some d → ofString? (print w x) = some d
  short : ∀ w x, Binary.isFinite x = true → (print w x).toList.length < 2 ^ 62

/-- **The floating-point number without loss.** -/
theorem lossless?_of {print : ∀ w : Width, Binary w → String} (hprint : PrintsShortest print) (hd : d.Storable)
    (w : Width) : (of d).lossless? (print w) = .ok (Binary.lossless? w d) := by
  unfold lossless? Binary.lossless?
  rw [toBinary_of hd, ok_bind]
  generalize Binary.ofDecimal w d = x
  by_cases hfinite : x.isFinite = true
  swap
  · rw [if_pos (by simpa using hfinite), if_pos (by simpa using hfinite)]
    rfl
  obtain ⟨shortest, hshortest⟩ := Binary.exists_shortest? hfinite
  have hlength : ((print w x).toList.length : ℤ) ≤ maxExponent := by
    have hshort := hprint.short w x hfinite
    unfold maxExponent
    omega
  have hread : ofChars? (print w x).toList = some shortest := hprint.reads w x shortest hshortest
  have hsame : (some shortest).map of = some (of d) ↔ some shortest = some d := by
    rw [Option.map_some, Option.some_inj, Option.some_inj]
    exact ⟨of_injective, congrArg of⟩
  rw [parse?_eq hlength, ok_bind, hread, if_neg (by simp [hfinite])]
  simp only [hsame, hfinite, hshortest, isInteger_of, toInt?_of hd, ok_bind, Bool.and_assoc]
  have hnone : ¬ (!true) = true := by decide
  rw [if_neg hnone]
  by_cases heq : some shortest = some d
  · rw [if_pos heq, if_pos heq]
    rfl
  · rw [if_neg heq, if_neg heq, ← Bool.and_assoc]
    cases d.isInteger && decide (x.magnitude < (Binary.integerBound w).magnitude) <;> rfl

/-! ## Texts -/

/-- **The point is not so far away** that its distance leaves the range. -/
theorem positional_of (hd : d.Storable) (hlow : minExponent < d.digits.length + d.exponent)
    (hhigh : d.digits.length + d.exponent ≤ maxExponent) :
    (of d).positional = .ok (Decimal.positional d.digits d.exponent) := by
  have hpoint : int64 (d.digits.length + d.exponent) = .ok (d.digits.length + d.exponent) :=
    int64_of_mem hlow.le hhigh
  unfold positional Decimal.positional
  rw [show (of d).digits = d.digits from rfl, show (of d).exponent = d.exponent from rfl, int64_length hd, ok_bind,
    hpoint, ok_bind]
  dsimp only
  generalize (d.digits.length + d.exponent : ℤ) = point at hlow hhigh ⊢
  by_cases hsmall : point ≤ 0
  · have hzeros : int64 (-point) = .ok (-point) := by
      unfold minExponent at hlow
      apply int64_of_mem
      · unfold minExponent
        omega
      · unfold maxExponent
        omega
    rw [if_pos hsmall, if_pos hsmall, hzeros]
    rfl
  · obtain ⟨place, rfl⟩ := Int.eq_ofNat_of_zero_le (show 0 ≤ point by omega)
    rw [if_neg hsmall, if_neg hsmall, toIndex_natCast, ok_bind]
    by_cases hbehind : d.digits.length ≤ place
    · have hzeros : ((place : ℤ) - d.digits.length).toNat = place - d.digits.length := by omega
      rw [if_pos hbehind, if_pos (by omega), hzeros]
      rfl
    · rw [if_neg hbehind, if_neg (by omega), cut_of_le (by omega), ok_bind]
      rfl

/-- There is a digit to stand before the point. -/
theorem scientific_of (h0 : d.coefficient ≠ 0) (e : ℤ) :
    (of d).scientific e = .ok (Decimal.scientific d.digits e) := by
  have hpos := length_digits_pos h0
  have hrest : d.digits.drop 1 = [] ↔ d.digits.length ≤ 1 := List.drop_eq_nil_iff
  unfold scientific Decimal.scientific
  rw [show (of d).digits = d.digits from rfl, cut_of_le hpos, ok_bind]
  simp only [hrest]
  rfl

/-- **Canonical text.** The point is looked for among the digits only where it is near. -/
theorem canonicalChars_of (hd : d.Storable) : (of d).canonicalChars = .ok d.canonicalChars := by
  unfold canonicalChars Decimal.canonicalChars
  rw [isZero_of, integerDigits_of hd, ok_bind]
  by_cases hz : d.isZero = true
  · rw [if_pos hz, if_pos hz]
    rfl
  have h0 : d.coefficient ≠ 0 := isZero_iff.not.1 hz
  obtain ⟨hlow, hhigh⟩ := hd.integerDigits_mem h0
  have hbefore : int64 (d.integerDigits - 1) = .ok (d.integerDigits - 1) := int64_of_mem (by omega) (by omega)
  rw [if_neg hz, if_neg hz, hbefore, ok_bind]
  dsimp only
  unfold body
  by_cases hplaces : -5 ≤ d.integerDigits - 1 ∧ d.integerDigits - 1 < 15
  · have hnear : d.integerDigits = d.digits.length + d.exponent := by
      unfold Decimal.integerDigits clampExponent minExponent maxExponent at *
      omega
    rw [if_pos hplaces, if_pos hplaces, positional_of hd (by omega) (by omega)]
    rfl
  · rw [if_neg hplaces, if_neg hplaces, scientific_of h0]
    rfl

/-- **Plain text.** -/
theorem plainChars_of (hd : d.Storable) : (of d).plainChars = .ok d.plainChars := by
  unfold plainChars Decimal.plainChars
  rw [isZero_of, integerDigits_of hd, ok_bind]
  by_cases hz : d.isZero = true
  · rw [if_pos hz, if_pos hz]
    rfl
  obtain ⟨hlow, hhigh⟩ := hd.integerDigits_mem (isZero_iff.not.1 hz)
  have habs : |d.integerDigits| = d.integerDigits.natAbs := Int.abs_eq_natAbs _
  have hmagnitude : int64 |d.integerDigits| = .ok |d.integerDigits| := by
    unfold minExponent at hlow
    unfold maxExponent at hhigh
    apply int64_of_mem
    · unfold minExponent
      omega
    · unfold maxExponent
      omega
  rw [if_neg hz, if_neg hz, hmagnitude, ok_bind]
  by_cases hfar : 1000 < d.integerDigits.natAbs
  · rw [if_pos (by omega), if_pos hfar, canonicalChars_of hd]
  · have hnear : d.integerDigits = d.digits.length + d.exponent := by
      unfold Decimal.integerDigits clampExponent minExponent maxExponent at *
      omega
    rw [if_neg (by omega), if_neg hfar, positional_of hd (by omega) (by omega)]
    rfl

/-! ## Every text -/

/-- **Decimals run without a fault**, whatever the text is and however large its exponent. What is read from a text of
less than `2 ^ 62` bytes is the decimal that it denotes. Of that the integers, the floating-point numbers and the texts
are computed with every intermediate result in range, with every place within the digits, without an overflow behind
the guard of 38 digits, and in no more than `maxRounds` rounds. They are the right ones. -/
theorem runs_without_fault {print : ∀ w : Width, Binary w → String} (hprint : PrintsShortest print) {text : String}
    (hsize : text.utf8ByteSize < 2 ^ 62) :
    parse? text.toList = .ok ((ofString? text).map of) ∧
    ∀ d, ofString? text = some d →
      (of d).toInt? = .ok d.toInt? ∧
      (of d).roundHalfAway? = .ok d.roundHalfAway? ∧
      (∀ w, (of d).toBinary w = .ok (Binary.ofDecimal w d)) ∧
      (∀ w, (of d).lossless? (print w) = .ok (Binary.lossless? w d)) ∧
      (of d).canonicalChars = .ok d.canonical.toList ∧
      (of d).plainChars = .ok d.plain.toList := by
  have hlength : text.toList.length < 2 ^ 62 := by
    have hle := Text.length_le_byteSize text.toList
    rw [Text.byteSize_toList] at hle
    omega
  have hrange : (text.toList.length : ℤ) ≤ maxExponent := by
    unfold maxExponent
    omega
  refine ⟨parse?_eq hrange, fun d hread => ?_⟩
  have hd := storable_of_ofChars? hread hlength
  refine ⟨toInt?_of hd, roundHalfAway?_of hd, toBinary_of hd, lossless?_of hprint hd, ?_, ?_⟩
  · rw [canonical, String.toList_ofList, canonicalChars_of hd]
  · rw [plain, String.toList_ofList, plainChars_of hd]

/-! ## A printer -/

theorem length_positional_le (ds : List Char) (e : ℤ) :
    (Decimal.positional ds e).length ≤ ds.length + (ds.length + e).natAbs + 2 := by
  unfold Decimal.positional
  dsimp only
  split_ifs
  · simp only [List.length_cons, List.length_append, List.length_replicate]
    omega
  · simp only [List.length_append, List.length_replicate]
    omega
  · simp only [List.length_append, List.length_cons, List.length_take, List.length_drop]
    omega

theorem length_scientific_le {n : ℕ} (ds : List Char) (hn : 0 < n) (he : z.natAbs < 10 ^ n) :
    (Decimal.scientific ds z).length ≤ ds.length + n + 4 := by
  have hdigits := (Nat.length_toDigits_le_iff (by norm_num) hn).2 he
  unfold Decimal.scientific exponentText
  dsimp only
  split_ifs <;>
    simp only [List.length_append, List.length_cons, List.length_nil, List.length_take, List.length_drop] <;>
    omega

theorem length_signText_le (d : Decimal) : d.signText.length ≤ 1 := by
  unfold Decimal.signText
  split_ifs <;> simp

/-- Canonical text is not much longer than the digits, if the point is not far away. -/
theorem length_canonicalChars_le (h : |(d.digits.length : ℤ) + d.exponent| ≤ 400) :
    d.canonicalChars.length ≤ d.digits.length + 403 := by
  rw [abs_le] at h
  have hsign := length_signText_le d
  have hplaces : d.integerDigits = d.digits.length + d.exponent := by
    apply clampExponent_of_mem
    · unfold minExponent
      omega
    · unfold maxExponent
      omega
  unfold Decimal.canonicalChars
  rw [hplaces]
  dsimp only
  split_ifs with hz hnear
  · simp
  · have hpositional := length_positional_le d.digits d.exponent
    rw [List.length_append]
    omega
  · have hscientific := length_scientific_le d.digits (show 0 < 3 by norm_num)
      (show (d.digits.length + d.exponent - 1 : ℤ).natAbs < 10 ^ 3 by omega)
    rw [List.length_append]
    omega

/-- **Canonical text is a printer of shortest texts.** -/
theorem printsShortest_canonical : PrintsShortest fun _ x => (x.shortest?.getD zero).canonical := by
  refine ⟨fun w x d hd => ?_, fun w x hx => ?_⟩
  · rw [hd, Option.getD_some]
    exact (Number.writtenAs_shortest? hd).2
  · obtain ⟨d, hd⟩ := Binary.exists_shortest? hx
    have hplaces := Number.abs_places_shortest? hd
    have hbound : w.digitBound ≤ 400 := by cases w <;> decide
    have hlength := length_canonicalChars_le (hplaces.trans hbound)
    have hdigits : d.digits.length ≤ 2000 := by
      cases hz : x.isZero with
      | true =>
        rw [Binary.shortest?_zero hz] at hd
        cases hd
        decide
      | false =>
        have hlow := (Binary.ofDecimal_shortest? hd hz).2
        have hplacesBound : (w.unitBits + w.maxDigits : ℤ) ≤ 1091 := by cases w <;> decide
        rw [abs_le] at hplaces
        omega
    rw [hd, Option.getD_some, canonical, String.toList_ofList]
    omega

/-- Two texts: one whose exponent sticks to the end of its range, and one that is rounded. -/
theorem runs_without_fault_texts :
    parse? "-25e99999999999999999999".toList = .ok (some ⟨true, ['2', '5'], maxExponent⟩) ∧
    canonicalChars ⟨true, ['2', '5'], maxExponent⟩ = .ok "-2.5e+9223372036854775806".toList ∧
    parse? "-02.50".toList = .ok (some ⟨true, ['2', '5'], -1⟩) ∧
    roundHalfAway? ⟨true, ['2', '5'], -1⟩ = .ok (some (-3)) ∧
    ∃ x, lossless? ⟨true, ['2', '5'], -1⟩ (fun x : Binary .double => (x.shortest?.getD zero).canonical) =
      .ok (some x) := by
  have hfar : ofString? "-25e99999999999999999999" = some ⟨true, 25, maxExponent⟩ := by decide +kernel
  have hnear : ofString? "-02.50" = some ⟨true, 25, -1⟩ := by decide +kernel
  have htext : canonical ⟨true, 25, maxExponent⟩ = "-2.5e+9223372036854775806" := by decide +kernel
  have hinteger : Decimal.roundHalfAway? ⟨true, 25, -1⟩ = some (-3) := by decide +kernel
  have hheld : (Binary.lossless? .double ⟨true, 25, -1⟩).isSome = true := by decide +kernel
  have hdigits : Nat.toDigits 10 25 = ['2', '5'] := by decide
  have hstored (e : ℤ) : of ⟨true, 25, e⟩ = ⟨true, ['2', '5'], e⟩ := by
    rw [of, digits_of_ne_zero (by decide : (25 : ℕ) ≠ 0), hdigits]
  obtain ⟨hreadFar, hrunFar⟩ := runs_without_fault printsShortest_canonical
    (show "-25e99999999999999999999".utf8ByteSize < 2 ^ 62 by decide +kernel)
  obtain ⟨hreadNear, hrunNear⟩ := runs_without_fault printsShortest_canonical
    (show "-02.50".utf8ByteSize < 2 ^ 62 by decide +kernel)
  obtain ⟨-, -, -, -, hcanonical, -⟩ := hrunFar _ hfar
  obtain ⟨-, hround, -, hlossless, -⟩ := hrunNear _ hnear
  obtain ⟨x, hx⟩ := Option.isSome_iff_exists.1 hheld
  have hx' := hlossless .double
  rw [hfar, Option.map_some, hstored] at hreadFar
  rw [hnear, Option.map_some, hstored] at hreadNear
  rw [hstored, htext] at hcanonical
  rw [hstored, hinteger] at hround
  rw [hstored, hx] at hx'
  exact ⟨hreadFar, hcanonical, hreadNear, hround, x, hx'⟩

end Stored

end SqlJson.Decimal
