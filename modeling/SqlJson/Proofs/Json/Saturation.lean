import SqlJson.Proofs.Decimal.Grammar

/-!
# Exponents out of range

The decimal of a text has the value that is written, unless an exponent sticks to the end of its range on the way. Then
both values are so large, or so small, that they are stored and rounded alike: in a text that fits a machine the digits
cannot make up for an exponent that is out of range.

* `storedExponent`, `exponent_cases`: the exponent of a decimal beside the exact one.
* `Approximates`: a value beside the one it stands for.
* `approximates_of_writes`: the value of the decimal of a text beside the one that is written.
-/

namespace SqlJson

open Json Grammar

variable {cs exponent : List Char} {e : ℤ} {q r : ℚ} {c m k room : ℕ} {z : ℤ} {d : Decimal} {p : NumberParts}

/-! ## Lengths -/

theorem lt_of_writesExponent (h : WritesExponent exponent e) : |e| < 10 ^ exponent.length := by
  cases h with
  | absent => norm_num
  | @present c sign ds negative hc hs hd =>
    have hlt : Nat.ofDigitChars 10 ds 0 < (0 + 1) * 10 ^ ds.length := Text.ofDigitChars_lt hd.2 0
    have hpow : 10 ^ ds.length ≤ 10 ^ (c :: sign ++ ds).length := Nat.pow_le_pow_right (by norm_num) (by simp; omega)
    rw [zero_add, one_mul] at hlt
    have habs : (Nat.ofDigitChars 10 ds 0 : ℤ) < 10 ^ (c :: sign ++ ds).length := by exact_mod_cast hlt.trans_le hpow
    split_ifs
    · rwa [abs_neg, Nat.abs_cast]
    · rwa [Nat.abs_cast]

theorem digits_of_writes (h : p.Writes cs) : 0 < p.whole.length ∧ ∀ c ∈ p.whole ++ p.fraction, c.isDigit := by
  cases h with
  | mk hw hf hds he =>
    obtain ⟨hne, hwhole⟩ := digits_of_whole hw
    exact ⟨List.length_pos_iff.2 hne, List.forall_mem_append.2 ⟨hwhole, digits_of_point hf hds⟩⟩

/-- **Parts that cannot make up for an exponent.** There is room for so many digits more in the range of exponents, and
an exponent that is out of range has taken more than eighteen characters. -/
def HasRoom (room : ℕ) (p : NumberParts) : Prop :=
  p.whole.length + p.fraction.length + room ≤ maxExponent ∧
    (maxExponent < |p.exponent| → p.whole.length + p.fraction.length + room + 19 ≤ maxExponent)

theorem hasRoom_of_writes (h : p.Writes cs) (hlen : cs.length + room ≤ maxExponent) : HasRoom room p := by
  cases h with
  | @mk negative whole fraction ds exponent e hw hf hds he =>
    have hlt := lt_of_writesExponent he
    have hpoint : ds.length ≤ fraction.length := by cases hds <;> simp
    simp only [List.length_append, Nat.cast_add] at hlen
    refine ⟨by dsimp only; omega, fun hbig => ?_⟩
    have hrange : (10 : ℤ) ^ 18 < maxExponent := by decide
    have hlong : 18 < exponent.length :=
      (pow_lt_pow_iff_right₀ (by norm_num)).1 (hrange.trans (hbig.trans hlt))
    dsimp only
    omega

/-! ## The stored exponent -/

/-- The exponent of the decimal of a text: the one that is written, less the digits behind the point, and more for the
zeros that are dropped at the end. Each of the three sticks to the ends of the range. -/
def storedExponent (e : ℤ) (fraction zeros : ℕ) : ℤ :=
  clampExponent (clampExponent (max (-maxExponent) (min maxExponent e) - fraction) + zeros)

/-- The conditions under which a stored exponent tells of the exact one: there is room, or the range is not left before
the zeros are dropped. -/
def Tells (room : ℕ) (p : NumberParts) : Prop :=
  HasRoom room p ∨ |p.exponent| ≤ maxExponent ∧ minExponent ≤ p.exponent - p.fraction.length

/-- **What a stored exponent tells of the exact one.** It is the same, or both are large, or both are so small that all
digits stand far behind the point. -/
theorem exponent_cases {zeros : ℕ} (h : Tells room p) (hroom : room + 20 ≤ maxExponent) (hwhole : 0 < p.whole.length)
    (hzeros : zeros ≤ p.whole.length + p.fraction.length) :
    p.exponent - p.fraction.length + zeros = storedExponent p.exponent p.fraction.length zeros ∨
    room + 20 ≤ p.exponent - p.fraction.length + zeros ∧
      room + 20 ≤ storedExponent p.exponent p.fraction.length zeros ∨
    p.whole.length + p.fraction.length + (p.exponent - p.fraction.length + zeros) + room ≤ zeros ∧
      p.whole.length + p.fraction.length + storedExponent p.exponent p.fraction.length zeros + room ≤ zeros := by
  obtain ⟨negative, whole, fraction, e⟩ := p
  unfold Tells HasRoom at h
  unfold storedExponent clampExponent
  unfold maxExponent minExponent at *
  dsimp only at *
  generalize whole.length = whole at *
  generalize fraction.length = fraction at *
  rcases le_or_gt |e| 9223372036854775807 with hle | hlt
  · have hmem := abs_le.1 hle
    have hwritten : max (-9223372036854775807) (min 9223372036854775807 e) = e := by omega
    rw [hwritten]
    rcases h with ⟨hshort, -⟩ | ⟨-, hlow⟩
    · omega
    · omega
  · rcases h with ⟨-, hshort⟩ | ⟨hle, -⟩
    · have hroom' := hshort hlt
      rw [lt_abs] at hlt
      omega
    · exact absurd hle (not_le.2 hlt)

/-! ## Values -/

theorem le_mul_zpow (hc : c ≠ 0) (he : m ≤ e) : (10 ^ m : ℚ) ≤ c * 10 ^ e := by
  have hone : (1 : ℚ) ≤ c := by exact_mod_cast Nat.one_le_iff_ne_zero.2 hc
  have hpow : (10 : ℚ) ^ (m : ℤ) ≤ 10 ^ e := zpow_le_zpow_right₀ (by norm_num) he
  calc (10 ^ m : ℚ) = 10 ^ (m : ℤ) := (zpow_natCast 10 m).symm
    _ ≤ 10 ^ e := hpow
    _ ≤ c * 10 ^ e := le_mul_of_one_le_left (by positivity) hone

/-- With all its digits far behind the point a number is small. -/
theorem mul_zpow_lt_one (h : c * 10 ^ k < 10 ^ m) (he : m + e + room ≤ k) : (c * 10 ^ e : ℚ) * 10 ^ room < 1 := by
  have hlt : (c * 10 ^ k : ℚ) < 10 ^ m := by exact_mod_cast h
  calc (c * 10 ^ e : ℚ) * 10 ^ room = c * 10 ^ k * 10 ^ (e + room - k) := by
        rw [zpow_sub₀ (by norm_num), zpow_add₀ (by norm_num), zpow_natCast, zpow_natCast]
        field_simp
    _ < 10 ^ m * 10 ^ (e + room - k) := mul_lt_mul_of_pos_right hlt (by positivity)
    _ = 10 ^ (m + (e + room - k)) := by rw [zpow_add₀ (by norm_num), zpow_natCast]
    _ ≤ 1 := zpow_le_one_of_nonpos₀ (by norm_num) (by omega)

/-- **A value beside the one it stands for.** Both are the same, or both are large, or both are small and on the same
side of zero. -/
inductive Approximates (room : ℕ) (q r : ℚ) : Prop
  | same (h : q = r)
  | large (hq : 10 ^ (room + 20) ≤ |q|) (hr : 10 ^ (room + 20) ≤ |r|)
  | small (hq : 0 < |q|) (hq' : |q| * 10 ^ room < 1) (hr : 0 < |r|) (hr' : |r| * 10 ^ room < 1) (hsign : q < 0 ↔ r < 0)

/-- A sign of both changes nothing. -/
theorem Approximates.ite (hq : 0 < q) (hr : 0 < r) (h : Approximates room q r) (negative : Bool) :
    Approximates room (if negative then -q else q) (if negative then -r else r) := by
  cases negative with
  | false => exact h
  | true =>
    cases h with
    | same h => exact .same (by rw [h])
    | large hq hr => exact .large (by simpa using hq) (by simpa using hr)
    | small hq' hq'' hr' hr'' =>
      exact .small (by simpa using hq') (by simpa using hq'') (by simpa using hr') (by simpa using hr'')
        (by simp [hq, hr])

/-- One coefficient with the exponent that is written, and with the one that is stored. -/
theorem approximates_mul_zpow {exact stored : ℤ} (hc : c ≠ 0) (hM : c * 10 ^ k < 10 ^ m)
    (hcases : exact = stored ∨ room + 20 ≤ exact ∧ room + 20 ≤ stored ∨
      m + exact + room ≤ k ∧ m + stored + room ≤ k) :
    Approximates room (c * 10 ^ exact) (c * 10 ^ stored) := by
  have hpos : (0 : ℚ) < c := by exact_mod_cast Nat.pos_of_ne_zero hc
  have hq : (0 : ℚ) < c * 10 ^ exact := by positivity
  have hr : (0 : ℚ) < c * 10 ^ stored := by positivity
  rcases hcases with rfl | ⟨hlarge, hlarge'⟩ | ⟨hsmall, hsmall'⟩
  · exact .same rfl
  · refine .large ?_ ?_
    · rw [abs_of_pos hq]
      exact le_mul_zpow hc (by exact_mod_cast hlarge)
    · rw [abs_of_pos hr]
      exact le_mul_zpow hc (by exact_mod_cast hlarge')
  · refine .small (abs_pos_of_pos hq) ?_ (abs_pos_of_pos hr) ?_ (iff_of_false hq.not_gt hr.not_gt)
    · rw [abs_of_pos hq]
      exact mul_zpow_lt_one hM hsmall
    · rw [abs_of_pos hr]
      exact mul_zpow_lt_one hM hsmall'

/-- **The decimal of a text stands for the value that is written.** -/
theorem approximates_of_writes (h : p.Writes cs) (htells : Tells room p) (hroom : room + 20 ≤ maxExponent)
    (hd : Decimal.ofChars? cs = some d) : Approximates room p.value d.value := by
  rw [Decimal.ofChars?_of_spelling (spelling_of_writes h)] at hd
  cases hd
  obtain ⟨hwhole, hdigits⟩ := digits_of_writes h
  have hM : Nat.ofDigitChars 10 (p.whole ++ p.fraction) 0 < 10 ^ (p.whole.length + p.fraction.length) := by
    have hlt := Text.ofDigitChars_lt hdigits 0
    rwa [List.length_append, zero_add, one_mul] at hlt
  unfold NumberParts.value
  dsimp only
  generalize Nat.ofDigitChars 10 (p.whole ++ p.fraction) 0 = M at hM ⊢
  rcases eq_or_ne M 0 with rfl | h0
  -- zero has one decimal, whatever the exponent
  · exact .same (by simp [Decimal.ofParts_zero, Decimal.value, Decimal.signed, Decimal.zero])
  obtain ⟨c, k, hmod, rfl⟩ := Decimal.exists_mul_pow h0
  have hc := Decimal.ne_zero_of_mod_ne hmod
  have hk := Decimal.stripZeros_le hM
  rw [Decimal.stripZeros_mul_pow hmod] at hk
  dsimp only at hk
  have hexact : ((c * 10 ^ k : ℕ) * 10 ^ (p.exponent - p.fraction.length) : ℚ) =
      c * 10 ^ (p.exponent - p.fraction.length + k) := by
    rw [zpow_add₀ (by norm_num), zpow_natCast]
    push_cast
    ring
  rw [hexact, Decimal.ofParts_mul_pow hmod, Decimal.value_eq_ite]
  dsimp only
  rw [← storedExponent]
  have hcases := exponent_cases htells hroom hwhole hk
  generalize p.exponent - p.fraction.length + k = exact at hcases ⊢
  generalize storedExponent p.exponent p.fraction.length k = stored at hcases ⊢
  have hpos : (0 : ℚ) < c := by exact_mod_cast Nat.pos_of_ne_zero hc
  exact (approximates_mul_zpow hc hM (by exact_mod_cast hcases)).ite (by positivity) (by positivity) p.negative

/-- A large number is no integer that could be stored. -/
theorem ne_intCast_of_large (hq : 10 ^ (room + 20) ≤ |q|) (hz : |z| < 10 ^ 20) : q ≠ z := by
  rintro rfl
  have hpow : (10 : ℤ) ^ 20 ≤ 10 ^ (room + 20) := pow_le_pow_right₀ (by norm_num) (by omega)
  have hle : (10 : ℤ) ^ (room + 20) ≤ |z| := by exact_mod_cast hq
  omega

/-- A small number is no integer at all. -/
theorem ne_intCast_of_small (hq : 0 < |q|) (hq' : |q| * 10 ^ room < 1) : q ≠ z := by
  rintro rfl
  have hone : (1 : ℚ) ≤ 10 ^ room := one_le_pow₀ (by norm_num)
  have hlt : |(z : ℚ)| < 1 := (le_mul_of_one_le_right (abs_nonneg _) hone).trans_lt hq'
  have hpos : 0 < |z| := by exact_mod_cast hq
  have hlt' : |z| < 1 := by exact_mod_cast hlt
  omega

/-- Values that stand for one another are equal to the same integers, as far as these could be stored. -/
theorem Approximates.eq_intCast_iff (h : Approximates room q r) (hz : |z| < 10 ^ 20) : q = z ↔ r = z := by
  cases h with
  | same h => rw [h]
  | large hq hr => exact iff_of_false (ne_intCast_of_large hq hz) (ne_intCast_of_large hr hz)
  | small hq hq' hr hr' => exact iff_of_false (ne_intCast_of_small hq hq') (ne_intCast_of_small hr hr')

end SqlJson
