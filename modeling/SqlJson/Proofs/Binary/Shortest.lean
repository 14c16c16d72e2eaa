import SqlJson.Binary.Shortest
import SqlJson.Proofs.Binary.Nearest
import SqlJson.Proofs.Decimal.NormalForm

/-!
# The shortest decimal reads back

The decimal a floating-point number is written as is read as the same number. Nothing is needed for
this about how short it is: the search takes only what reads back, and what it falls back on is the
exact value.

* `ofDecimal_eq`: rounding a decimal sees its value only; the bounds on the digits change nothing.
* `ofDecimal_shortest?`: the shortest decimal of a number is read as that number.
* `digits_bounds`: a decimal that is read as a number has neither too many digits nor too many places.
-/

namespace SqlJson

variable {w : Width} {c c' i k : ℕ} {e e' : ℤ}

namespace Width

/-- The number of the value nearest to `c · 10 ^ e`. -/
def indexOf (w : Width) (c : ℕ) (e : ℤ) : ℕ :=
  w.nearestIndex (c * 10 ^ e.toNat) (10 ^ (-e).toNat)

theorem readsBack_iff : w.readsBack i c e = true ↔ w.indexOf c e = i := by
  unfold readsBack
  exact decide_eq_true_iff

theorem cast_div_pow (c : ℕ) (e : ℤ) :
    ((c * 10 ^ e.toNat : ℕ) : ℚ) / (10 ^ (-e).toNat : ℕ) = c * 10 ^ e := by
  push_cast
  rcases le_total 0 e with he | he
  · obtain ⟨n, rfl⟩ := Int.eq_ofNat_of_zero_le he
    simp
  · obtain ⟨n, hn⟩ := Int.eq_ofNat_of_zero_le (Int.neg_nonneg.2 he)
    have he' : e = -(n : ℤ) := by omega
    subst he'
    simp [div_eq_mul_inv]

/-- **The larger the decimal, the larger its number.** -/
theorem indexOf_mono (h : (c : ℚ) * 10 ^ e ≤ c' * 10 ^ e') : w.indexOf c e ≤ w.indexOf c' e' := by
  have hb : 0 < 10 ^ (-e).toNat := by positivity
  have hb' : 0 < 10 ^ (-e').toNat := by positivity
  refine nearestIndex_mono hb hb' ?_
  rw [← cast_div_pow, ← cast_div_pow, div_le_div_iff₀ (by exact_mod_cast hb) (by exact_mod_cast hb')] at h
  exact_mod_cast h

theorem indexOf_congr (h : (c : ℚ) * 10 ^ e = c' * 10 ^ e') : w.indexOf c e = w.indexOf c' e' :=
  le_antisymm (indexOf_mono h.le) (indexOf_mono h.ge)

theorem indexOf_mul_pow : w.indexOf (c * 10 ^ k) e = w.indexOf c (e + k) := by
  refine indexOf_congr ?_
  rw [zpow_add₀ (by norm_num)]
  push_cast
  rw [zpow_natCast]
  ring

theorem indexOf_zero : w.indexOf 0 e = 0 := by
  rw [indexOf, Nat.zero_mul]
  exact nearestIndex_zero (by positivity)

/-- **A decimal equal to a value gets the number of that value.** -/
theorem indexOf_valueOf (h : c * 2 ^ w.unitBits = w.valueOf i) : w.indexOf c 0 = i := by
  refine nearestIndex_valueOf (by positivity) ?_
  simpa using h

/-! ## The bounds on the digits -/

theorem indexCount_le_indexOf (w : Width) : w.indexCount ≤ w.indexOf 1 w.digitBound := by
  cases w <;> decide +kernel

theorem indexOf_digitBound (w : Width) : w.indexOf 1 (-w.digitBound) = 0 := by
  cases w <;> decide +kernel

/-- A decimal with too many digits left of the point is beyond the format. -/
theorem indexCount_le (hc : c ≠ 0) (h : w.digitBound ≤ e) : w.indexCount ≤ w.indexOf c e := by
  refine (indexCount_le_indexOf w).trans (indexOf_mono ?_)
  have hone : (1 : ℚ) ≤ c := by exact_mod_cast Nat.pos_of_ne_zero hc
  have hpow : (10 : ℚ) ^ w.digitBound ≤ 10 ^ e := zpow_le_zpow_right₀ (by norm_num) h
  calc ((1 : ℕ) : ℚ) * 10 ^ w.digitBound ≤ 1 * 10 ^ e := by simpa using hpow
    _ ≤ c * 10 ^ e := by gcongr

/-- The digits of a number put it between two powers of ten. -/
theorem pow_length_le (hc : c ≠ 0) :
    (10 : ℚ) ^ ((Nat.toDigits 10 c).length - 1 : ℤ) ≤ c ∧
      (c : ℚ) < 10 ^ ((Nat.toDigits 10 c).length : ℤ) := by
  have hpos : 0 < (Nat.toDigits 10 c).length := Nat.length_toDigits_pos
  obtain ⟨n, hn⟩ : ∃ n, (Nat.toDigits 10 c).length = n + 1 := ⟨_, (Nat.succ_pred_eq_of_pos hpos).symm⟩
  have hlt : c < 10 ^ (n + 1) := (Nat.length_toDigits_le_iff (by norm_num) (by omega)).1 hn.le
  have hle : 10 ^ n ≤ c := by
    rcases Nat.eq_zero_or_pos n with rfl | h0
    · rw [pow_zero]
      exact Nat.pos_of_ne_zero hc
    · by_contra hlt'
      have := (Nat.length_toDigits_le_iff (by norm_num) h0).2 (not_le.1 hlt')
      omega
  rw [hn]
  constructor
  · have h : ((n + 1 : ℕ) : ℤ) - 1 = (n : ℕ) := by omega
    rw [h, zpow_natCast]
    exact_mod_cast hle
  · rw [zpow_natCast]
    exact_mod_cast hlt

theorem indexCount_le_of_digits (hc : c ≠ 0) (h : w.digitBound < (Nat.toDigits 10 c).length + e) :
    w.indexCount ≤ w.indexOf c e := by
  have hle := (pow_length_le hc).1
  refine (indexCount_le (c := 1) one_ne_zero (e := ((Nat.toDigits 10 c).length - 1 : ℤ) + e) (by omega)).trans
    (indexOf_mono ?_)
  rw [zpow_add₀ (by norm_num), Nat.cast_one, one_mul]
  gcongr

theorem indexOf_eq_zero_of_digits (hc : c ≠ 0) (h : (Nat.toDigits 10 c).length + e < -w.digitBound) :
    w.indexOf c e = 0 := by
  have hlt := (pow_length_le hc).2
  have hpow : (10 : ℚ) ^ ((Nat.toDigits 10 c).length + e : ℤ) ≤ 10 ^ (-w.digitBound) :=
    zpow_le_zpow_right₀ (by norm_num) h.le
  rw [← Nat.le_zero, ← indexOf_digitBound w]
  refine indexOf_mono ?_
  calc (c : ℚ) * 10 ^ e ≤ 10 ^ ((Nat.toDigits 10 c).length : ℤ) * 10 ^ e := by gcongr
    _ = 10 ^ ((Nat.toDigits 10 c).length + e : ℤ) := (zpow_add₀ (by norm_num) _ _).symm
    _ ≤ ((1 : ℕ) : ℚ) * 10 ^ (-w.digitBound) := by simpa using hpow

/-! ## The search -/

theorem readsBack_of_onGrid? {a b : ℕ} (h : w.onGrid? i a b e = some c) : w.indexOf c e = i := by
  unfold onGrid? at h
  rw [← readsBack_iff]
  simp only at h
  split at h
  · rename_i h₁ h₂
    split_ifs at h
    · cases h; exact h₁
    · cases h; exact h₂
  · rename_i h₁ h₂
    cases h; exact h₁
  · rename_i h₁ h₂
    cases h; exact h₂
  · cases h

theorem leadingExponent_ge (w : Width) (i : ℕ) :
    -(w.unitBits : ℤ) ≤ leadingExponent (w.valueOf i) (2 ^ w.unitBits) := by
  unfold leadingExponent
  split_ifs with h
  · have hpos : 0 < (Nat.toDigits 10 (w.valueOf i / 2 ^ w.unitBits)).length := Nat.length_toDigits_pos
    omega
  · have hbits : 0 < w.unitBits := by cases w <;> decide
    have hle : (2 ^ w.unitBits - 1) / w.valueOf i < 10 ^ w.unitBits :=
      calc (2 ^ w.unitBits - 1) / w.valueOf i ≤ 2 ^ w.unitBits - 1 := Nat.div_le_self _ _
        _ < 2 ^ w.unitBits := Nat.sub_lt (Nat.two_pow_pos _) one_pos
        _ ≤ 10 ^ w.unitBits := Nat.pow_le_pow_left (by norm_num) _
    have hlen := (Nat.length_toDigits_le_iff (by norm_num) hbits).2 hle
    omega

/-- **What the search finds reads back**, and has no more decimal places than it should. -/
theorem shortestParts_spec (w : Width) (i : ℕ) :
    w.indexOf (w.shortestParts i).1 (w.shortestParts i).2 = i ∧
      -(w.unitBits + w.maxDigits : ℤ) ≤ (w.shortestParts i).2 := by
  unfold shortestParts
  simp only
  cases hfound : (List.range w.maxDigits).findSome? _ with
  | none =>
    -- the exact value: as many decimal places as there are bits in the unit
    refine ⟨nearestIndex_valueOf (by positivity) ?_, by simp⟩
    have hten : (10 : ℕ) = 5 * 2 := rfl
    have hneg : (-(-(w.unitBits : ℤ))).toNat = w.unitBits := by omega
    have hpos : (-(w.unitBits : ℤ)).toNat = 0 := by omega
    simp only [Option.getD_none, Nat.pow_eq, hneg, hpos, pow_zero, mul_one]
    rw [hten, mul_pow, ← mul_assoc]
  | some found =>
    obtain ⟨j, hj, hmap⟩ := List.exists_of_findSome?_eq_some hfound
    obtain ⟨c, hc, rfl⟩ := Option.map_eq_some_iff.1 hmap
    have hlow := leadingExponent_ge w i
    have hjlt := List.mem_range.1 hj
    refine ⟨readsBack_of_onGrid? hc, ?_⟩
    simp only [Option.getD_some, Nat.pow_eq] at hlow ⊢
    omega

end Width

namespace Binary

open Width Decimal

variable {negative : Bool} {d : Decimal} {x : Binary w}

/-- **Rounding sees the value of a decimal only**: the bounds on its digits cut off nothing but
infinities and zeros. -/
theorem ofDecimal_eq (h0 : d.coefficient ≠ 0) :
    ofDecimal w d = ofIndex d.negative (w.indexOf d.coefficient d.exponent) := by
  have hz : d.isZero = false := by simpa [Decimal.isZero] using h0
  have hbound : 0 < w.digitBound ∧ w.digitBound < 1000 := by cases w <;> decide
  unfold ofDecimal
  rw [hz, integerDigits, digits_of_ne_zero h0, clampExponent, minExponent, maxExponent]
  simp only [Bool.false_eq_true, if_false]
  -- where a bound on the digits decides, rounding would have said the same
  split_ifs with hlarge hsmall
  · have h := indexCount_le_of_digits (w := w) (e := d.exponent) h0 (by omega)
    rw [ofIndex, dif_neg (by omega)]
  · rw [indexOf_eq_zero_of_digits h0 (by omega)]
  · rfl

/-- **The parts of a decimal may have factors of ten in either place.** -/
theorem ofDecimal_ofParts (hc : c ≠ 0) (he : minExponent ≤ e) :
    ofDecimal w (ofParts negative c e) = ofIndex negative (w.indexOf c e) := by
  obtain ⟨m, k, hm, rfl⟩ := exists_mul_pow hc
  have hm0 := ne_zero_of_mod_ne hm
  rw [ofParts_mul_pow hm, ofDecimal_eq hm0, indexOf_mul_pow]
  rcases le_total (e + k) maxExponent with hle | hge
  · have hclamp : clampExponent (e + k) = e + k := clampExponent_of_mem (by omega) hle
    simp only [hclamp]
  -- an exponent that sticks to the end of its range is beyond the format anyway
  · have hbound : w.digitBound < maxExponent := by cases w <;> decide
    have hclamp : clampExponent (e + k) = maxExponent := by
      unfold clampExponent minExponent
      unfold maxExponent at hge ⊢
      omega
    have h₁ := indexCount_le (w := w) hm0 hbound.le
    have h₂ := indexCount_le (w := w) hm0 (hbound.le.trans hge)
    simp only [hclamp]
    rw [ofIndex, dif_neg (by omega), ofIndex, dif_neg (by omega)]

/-- The exponent of a normal form is not below that of the parts. -/
theorem le_exponent_ofParts {b : ℤ} (hc : c ≠ 0) (hb : b ≤ maxExponent) (he : b ≤ e) :
    b ≤ (ofParts negative c e).exponent := by
  obtain ⟨m, k, hm, rfl⟩ := exists_mul_pow hc
  rw [ofParts_mul_pow hm]
  unfold clampExponent
  simp only
  omega

theorem shortest?_isNormal (h : x.shortest? = some d) : d.IsNormal := by
  unfold shortest? at h
  split at h
  · split_ifs at h
    · cases h; exact .inl rfl
    · cases h; exact ofParts_isNormal _ _ _
  · cases h

/-- A number that is not zero has a shortest decimal made of parts that read back. -/
theorem shortest?_finite {i : Fin w.indexCount} (hi : i.val ≠ 0) : (finite negative i).shortest? =
    some (ofParts negative (w.shortestParts i).1 (w.shortestParts i).2) := by
  rw [shortest?, if_neg hi]

theorem shortest?_zero (h : x.isZero) : x.shortest? = some Decimal.zero := by
  cases x with
  | finite negative i => exact if_pos (by simpa [isZero] using h)
  | nan => simp [isZero] at h
  | infinity => simp [isZero] at h

theorem isFinite_of_shortest? (h : x.shortest? = some d) : x.isFinite = true := by
  cases x with
  | finite => rfl
  | nan => cases h
  | infinity => cases h

theorem shortest?_of_not_isFinite (h : x.isFinite = false) : x.shortest? = none := by
  cases x with
  | finite => cases h
  | nan => rfl
  | infinity => rfl

theorem exists_shortest? (h : x.isFinite) : ∃ d, x.shortest? = some d := by
  cases x with
  | nan => cases h
  | infinity => cases h
  | finite negative i =>
    by_cases hi : i.val = 0
    · exact ⟨_, if_pos hi⟩
    · exact ⟨_, shortest?_finite hi⟩

theorem numericEq_self (h : x.isFinite) : x.numericEq x = true := by
  cases x with
  | finite => simp [numericEq]
  | nan => cases h
  | infinity => cases h

/-- **Equal numbers have the same shortest decimal.** -/
theorem shortest?_eq_of_numericEq {y : Binary w} (h : x.numericEq y = true) : x.shortest? = y.shortest? := by
  unfold numericEq at h
  split at h
  · rename_i n i m j
    simp only [Bool.and_eq_true, Bool.or_eq_true, decide_eq_true_eq] at h
    obtain ⟨rfl, rfl | hzero⟩ := h
    · rfl
    · rw [shortest?, shortest?, if_pos hzero, if_pos hzero]
  · rfl
  · cases h

/-- **The shortest decimal of a number is read as that number**, and does not have too many decimal
places. -/
theorem ofDecimal_shortest? (h : x.shortest? = some d) (hz : x.isZero = false) :
    ofDecimal w d = x ∧ -(w.unitBits + w.maxDigits : ℤ) ≤ d.exponent := by
  cases x with
  | nan => cases h
  | infinity => cases h
  | finite negative i =>
    have hi : i.val ≠ 0 := by simpa [isZero] using hz
    rw [shortest?_finite hi] at h
    cases h
    obtain ⟨hback, hlow⟩ := shortestParts_spec w i
    have hc : (w.shortestParts i).1 ≠ 0 := by
      intro h0
      rw [h0, indexOf_zero] at hback
      exact hi hback.symm
    have hmin : minExponent ≤ -(w.unitBits + w.maxDigits : ℤ) := by cases w <;> decide
    have hmax : -(w.unitBits + w.maxDigits : ℤ) ≤ maxExponent := by cases w <;> decide
    refine ⟨?_, le_exponent_ofParts hc hmax hlow⟩
    rw [ofDecimal_ofParts hc (hmin.trans hlow), hback, ofIndex, dif_pos i.isLt]

/-- The value and the sign of a number that is an integer. -/
theorem valueOf_toInt? {z : ℤ} {i : Fin w.indexCount} (h : (finite negative i).toInt? = some z) :
    z.natAbs * 2 ^ w.unitBits = w.valueOf i ∧ (z ≠ 0 → negative = decide (z < 0)) := by
  obtain ⟨n, hn⟩ : ∃ n, w.valueOf i / 2 ^ w.unitBits = n := ⟨_, rfl⟩
  unfold toInt? at h
  simp only [Nat.pow_eq, hn] at h
  split_ifs at h with hmod hneg
  all_goals
    have hexact : n * 2 ^ w.unitBits = w.valueOf i := by
      rw [← hn, Nat.div_mul_cancel (Nat.dvd_of_mod_eq_zero hmod)]
    cases h
  · refine ⟨by simpa using hexact, fun hne => ?_⟩
    rw [hneg, eq_comm, decide_eq_true_iff]
    omega
  · refine ⟨by simpa using hexact, fun _ => ?_⟩
    rw [Bool.not_eq_true] at hneg
    rw [hneg, eq_comm, decide_eq_false_iff_not]
    omega

theorem toInt?_of_isZero (h : x.isZero) : x.toInt? = some 0 := by
  cases x with
  | nan => simp [isZero] at h
  | infinity => simp [isZero] at h
  | finite negative i =>
    have hi : i.val = 0 := by simpa [isZero] using h
    have hval : w.valueOf i = 0 := by rw [hi, valueOf, Nat.zero_sub, Nat.zero_mul]
    rw [toInt?, hval, Nat.zero_mod, Nat.zero_div, if_pos rfl]
    cases negative <;> rfl

/-- A decimal that is read as a finite number other than zero has neither too many digits nor too
many decimal places. -/
theorem digits_bounds (h : ofDecimal w d = x) (hz : x.isZero = false) (hfin : x.isFinite) :
    d.coefficient ≠ 0 ∧ -w.digitBound ≤ d.digits.length + d.exponent ∧
      d.digits.length + d.exponent ≤ w.digitBound := by
  have h0 : d.coefficient ≠ 0 := by
    intro h0
    have hdz : d.isZero = true := by simpa [Decimal.isZero] using h0
    rw [ofDecimal, if_pos hdz] at h
    subst h
    revert hz
    cases w <;> decide
  rw [ofDecimal_eq h0] at h
  rw [digits_of_ne_zero h0]
  refine ⟨h0, ?_, ?_⟩
  · by_contra hlt
    rw [indexOf_eq_zero_of_digits h0 (not_le.1 hlt)] at h
    subst h
    revert hz
    cases w <;> cases d.negative <;> decide
  · by_contra hlt
    have hle := indexCount_le_of_digits h0 (not_le.1 hlt)
    rw [ofIndex, dif_neg (by omega)] at h
    subst h
    cases hfin

end Binary

end SqlJson
