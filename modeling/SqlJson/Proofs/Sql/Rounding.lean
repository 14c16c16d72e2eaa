import SqlJson.Proofs.Binary.Ties
import SqlJson.Proofs.Json.Reading
import SqlJson.Proofs.Json.Saturation
import SqlJson.Proofs.Number.Rereading
import SqlJson.Proofs.Sql.Agreement

/-!
# Numbers extracted with rounding

A number that is read and extracted with rounding is the one nearest to what is written: the forms in which numbers
are stored lose nothing that the rounding depends on. There is one exception. An integer beyond 64 bits that a double is
equal to is stored as that double, and rounded to single precision by way of its shortest decimal; halfway between two
singles this decimal may lie on the wrong side.

* `Rounds`: correct rounding.
* `Rounds.of_approximates`: values of which exponents were out of range are rounded alike.
* `Number.ofDecimal_none_cases`: what the stored number tells of the decimal.
* `Number.rounds_double`, `Number.rounds_single`: stored numbers are rounded correctly.
* `Json.strict_round_nearest`: so are the numbers of documents.
* `Json.strict_round_tie`: an integer halfway between two singles that is not.
-/

namespace SqlJson

open SqlJson.Except

variable {w : Width} {n : Number} {d : Decimal} {q : ℚ} {literal text : String}

/-- **Correct rounding.** The result is the number nearest to a rational number, or an error if that is infinite. -/
inductive Rounds (w : Width) (q : ℚ) : Except Error SqlValue → Prop
  | nearest {x : Binary w} (hq : |q| < w.overflow) (hx : x.IsNearest q) : Rounds w q (.ok x.toSql)
  | overflow {loss : PrecisionLoss} (hq : w.overflow ≤ |q|) : Rounds w q (.error (.precision loss))

/-! ## Values out of range -/

/-- With so many digits more in front of the point a number is infinite in both formats, and with so many zeros behind
the point it is rounded to zero. -/
def margin : ℕ := 400

theorem Width.overflow_lt (w : Width) : (w.overflow : ℚ) < 10 ^ margin := by
  have hnat : w.overflow < 10 ^ margin := by cases w <;> decide +kernel
  exact_mod_cast hnat

theorem Width.lt_lastBit (w : Width) : 2 < w.lastBit 0 * 10 ^ margin := by
  have hnat : 2 * 2 ^ w.unitBits < 10 ^ margin := by cases w <;> decide +kernel
  rw [lastBit, pow_zero, one_div_mul_eq_div, lt_div_iff₀ (by positivity)]
  exact_mod_cast hnat

/-- Small numbers are below half the least value. -/
theorem Width.lt_lastBit_of_small (h : |q| * 10 ^ margin < 1) : 2 * |q| < w.lastBit 0 := by
  have hpow : (0 : ℚ) < 10 ^ margin := by positivity
  have hbit := w.lt_lastBit
  refine lt_of_mul_lt_mul_right ?_ hpow.le
  linarith

/-- Numbers halfway between neighbours are not large. -/
theorem Binary.IsTie.abs_lt (h : Binary.IsTie w q) : |q| < 10 ^ margin := by
  obtain ⟨i, hi, hq⟩ := h
  have hnext := w.valueAt_strictMono (Nat.lt_succ_self i)
  have hlast := w.valueAt_strictMono.monotone (Nat.succ_le_of_lt hi)
  have hnat : w.valueOf w.indexCount < 10 ^ margin * 2 ^ w.unitBits := by cases w <;> decide +kernel
  have hbound : w.valueAt w.indexCount < 10 ^ margin := by
    rw [Width.valueAt, div_lt_iff₀ (by positivity)]
    exact_mod_cast hnat
  rw [hq, Width.midpoint]
  linarith

/-- **Values that stand for one another are rounded alike**: large ones are infinite, and small ones become zero. -/
theorem Rounds.of_approximates {r : ℚ} {outcome : Except Error SqlValue} (happrox : Approximates margin q r)
    (h : Rounds w r outcome) : Rounds w q outcome := by
  cases happrox with
  | same heq => rwa [heq]
  | large hq hr =>
    have hoverflow := w.overflow_lt
    have hpow : (10 : ℚ) ^ margin ≤ 10 ^ (margin + 20) := pow_le_pow_right₀ (by norm_num) (by omega)
    cases h with
    | nearest hr' => linarith
    | overflow => exact .overflow (by linarith)
  | small hq hq' hr hr' hsign =>
    have hone : (1 : ℚ) ≤ 10 ^ margin := one_le_pow₀ (by norm_num)
    have hbelow {s : ℚ} (hs : |s| * 10 ^ margin < 1) : |s| < 1 :=
      (le_mul_of_one_le_right (abs_nonneg s) hone).trans_lt hs
    have hoverflow : (1 : ℚ) ≤ w.overflow := by
      have hnat : 1 ≤ w.overflow := by cases w <;> decide +kernel
      exact_mod_cast hnat
    have hlow := hbelow hr'
    cases h with
    | nearest _ hx =>
      exact .nearest ((hbelow hq').trans_le hoverflow)
        (hx.of_small (Width.lt_lastBit_of_small hr') (Width.lt_lastBit_of_small hq') hsign.symm)
    | overflow hle => linarith

/-- Of two values that stand for one another, both or none are integers halfway between singles. -/
theorem tie_of_approximates {r : ℚ} (happrox : Approximates margin q r)
    (h : (∃ z : ℤ, r = z ∧ Number.ofInt? z = none) ∧ Binary.IsTie .single r) :
    (∃ z : ℤ, q = z ∧ Number.ofInt? z = none) ∧ Binary.IsTie .single q := by
  obtain ⟨⟨z, hz, hnone⟩, htie⟩ := h
  cases happrox with
  | same heq =>
    rw [heq]
    exact ⟨⟨z, hz, hnone⟩, htie⟩
  | large hq hr =>
    have hlt := htie.abs_lt
    have hpow : (10 : ℚ) ^ margin ≤ 10 ^ (margin + 20) := pow_le_pow_right₀ (by norm_num) (by omega)
    linarith
  | small hq hq' hr hr' => exact absurd hz (ne_intCast_of_small hr hr')

namespace Number

open Binary

/-! ## Decimals -/

theorem decimalToBinary_round (w : Width) (d : Decimal) (text : String) : decimalToBinary w d text .round =
    if (Binary.ofDecimal w d).isFinite then .ok (Binary.ofDecimal w d)
    else .error (.precision (.outsideRange text w.type)) := by
  unfold decimalToBinary
  split
  · rename_i x hx
    obtain ⟨rfl, hfinite, -⟩ := lossless?_spec hx
    rw [if_pos hfinite]
  · rfl

/-- A decimal is rounded correctly, also by way of another decimal that is rounded alike. -/
theorem rounds_decimalToBinary {d' : Decimal} (h : Binary.ofDecimal w d' = Binary.ofDecimal w d) :
    Rounds w d.value ((decimalToBinary w d' text .round).map Binary.toSql) := by
  rw [decimalToBinary_round, h]
  split_ifs with hfinite
  · exact .nearest (isFinite_ofDecimal_iff.1 hfinite) (isNearest_ofDecimal hfinite)
  · exact .overflow (not_lt.1 (isFinite_ofDecimal_iff.not.1 hfinite))

/-! ## Stored numbers -/

/-- **What a stored number tells of the decimal.** Either it has the same decimal, or it is the double nearest to an
integer beyond 64 bits, and equal to that. -/
theorem ofDecimal_none_cases (hd : d.IsNormal) (h : ofDecimal d literal none = .ok n) :
    n.toDecimal = d ∧ (∀ x, n = .double x → Binary.ofDecimal .double d = x ∧ x.isFinite = true) ∨
      ∃ x z, n = .double x ∧ Binary.ofDecimal .double d = x ∧ x.isFinite = true ∧ d.toInt? = some z ∧
        x.toInt? = some z ∧ ofInt? z = none := by
  rcases ofDecimal_cases (by simp) h with ⟨z, hz, hn⟩ | ⟨hint, x, hx, rfl⟩ | ⟨-, -, rfl, -⟩
  · left
    obtain ⟨rfl, -⟩ := Decimal.eq_ofInt_of_toInt? hd hz
    rcases ofInt?_cases hn with ⟨value, rfl, rfl⟩ | ⟨value, rfl, rfl⟩
    · exact ⟨rfl, fun x hx => by cases hx⟩
    · exact ⟨rfl, fun x hx => by cases hx⟩
  · obtain ⟨hof, hfinite, hshort | ⟨z, hz, hxz⟩⟩ := lossless?_spec hx
    · refine .inl ⟨toDecimal_of_shortest? hshort, ?_⟩
      rintro y ⟨rfl⟩
      exact ⟨hof, hfinite⟩
    · rw [hz, Option.bind_some] at hint
      exact .inr ⟨x, z, rfl, hof, hfinite, hz, hxz, hint⟩
  · exact .inl ⟨rfl, fun x hx => by cases hx⟩

/-- **Stored numbers are rounded correctly** to doubles. -/
theorem rounds_double (hd : d.IsNormal) (h : ofDecimal d literal none = .ok n) :
    Rounds .double d.value ((n.toBinary .double .round).map Binary.toSql) := by
  have hdouble {x : Binary .double} (hx : Binary.ofDecimal .double d = x) (hfinite : x.isFinite = true) :
      Rounds .double d.value (((double x).toBinary .double .round).map Binary.toSql) := by
    subst hx
    exact .nearest (isFinite_ofDecimal_iff.1 hfinite) (isNearest_ofDecimal hfinite)
  rcases ofDecimal_none_cases hd h with ⟨hvalue, hx⟩ | ⟨x, z, rfl, hx, hfinite, -⟩
  · cases n with
    | double x => exact hdouble (hx x rfl).1 (hx x rfl).2
    | _ => exact rounds_decimalToBinary (by rw [hvalue])
  · exact hdouble hx hfinite

/-- **Stored numbers are rounded correctly** to single precision, but for integers beyond 64 bits that are halfway
between two singles. -/
theorem rounds_single (hd : d.IsNormal) (h : ofDecimal d literal none = .ok n)
    (htie : ¬((∃ z : ℤ, d.value = z ∧ ofInt? z = none) ∧ IsTie .single d.value)) :
    Rounds .single d.value ((n.toBinary .single .round).map Binary.toSql) := by
  refine rounds_decimalToBinary ?_
  rcases ofDecimal_none_cases hd h with ⟨hvalue, -⟩ | ⟨x, z, rfl, hx, hfinite, hz, hxz, hbeyond⟩
  · rw [hvalue]
  · have hzero := isZero_eq_false_of_toInt? hxz hbeyond
    have hvalue := Decimal.value_of_toInt? hd hz
    obtain ⟨d', hd'⟩ := exists_shortest? hfinite
    rw [toDecimal_of_shortest? hd']
    refine ofDecimal_single_eq hx (Binary.ofDecimal_shortest? hd' hzero).1 hfinite hzero ?_ fun htie' => ?_
    · rw [(value_of_toInt? hxz).2, hvalue]
    · exact htie ⟨⟨z, hvalue, hbeyond⟩, htie'⟩

end Number

namespace Json

open Grammar

theorem strict_number (n : Number) (w : Width) (mode : WideMode) :
    (number n).strict w.scalarType mode = (n.toBinary w mode).map Binary.toSql := by
  cases w <;> rfl

/-- A text that is a number is read as that number, whatever the bound of the depth. -/
theorem read_literal {mode : Option WideMode} (h : Literal text.toList) (hn : Number.ofLiteral text mode = .ok n)
    (maxDepth : ℕ) : read ⟨mode, maxDepth⟩ text = .ok (.number n) := by
  rw [read_of_literal h, hn]
  rfl

/-- **Numbers extracted with rounding are rounded correctly** from what is written. Every number has parts. The number
is read, and rounded to the double nearest to the value of its parts. It is rounded to the nearest single as well, if it
is not an integer beyond 64 bits halfway between two singles. In a text that is shorter than `2 ^ 63` by 400 characters
this holds whatever the exponent is; in a longer one, as long as the exponent is in range, with the digits behind the
point taken off and without. -/
theorem strict_round_nearest (text : String) (maxDepth : ℕ) (h : Literal text.toList) :
    (∃ p : NumberParts, p.Writes text.toList) ∧ ∀ p : NumberParts, p.Writes text.toList →
      text.length + 400 < 2 ^ 63 ∨ |p.exponent| ≤ maxExponent ∧ minExponent ≤ p.exponent - p.fraction.length →
      ∃ v, read ⟨none, maxDepth⟩ text = .ok v ∧ Rounds .double p.value (v.strict .double .round) ∧
        (¬((∃ z : ℤ, p.value = z ∧ Number.ofInt? z = none) ∧ Binary.IsTie .single p.value) →
          Rounds .single p.value (v.strict .float .round)) := by
  refine ⟨exists_writes h, fun p hwrites hrange => ?_⟩
  obtain ⟨n, hn⟩ := exists_ofLiteral h
  rw [String.ofList_toList] at hn
  have hd : Decimal.ofString? text = some _ := Decimal.ofChars?_of_spelling (spelling_of_writes hwrites)
  have hnormal := Decimal.ofChars?_isNormal hd
  have hstored := hn
  rw [Number.ofLiteral, hd] at hstored
  have htells : Tells margin p := hrange.imp_left fun hlength => hasRoom_of_writes hwrites (by
    rw [String.length_toList, maxExponent, margin]
    omega)
  have happrox := approximates_of_writes hwrites htells (by decide) hd
  have hdouble := Number.rounds_double hnormal hstored
  refine ⟨_, read_literal h hn maxDepth, ?_, fun htie => ?_⟩
  · exact strict_number n .double .round ▸ hdouble.of_approximates happrox
  · have hsingle := Number.rounds_single hnormal hstored fun htie' => htie (tie_of_approximates happrox htie')
    exact strict_number n .single .round ▸ hsingle.of_approximates happrox

/-- One tenth, which no number of either format is equal to. -/
theorem strict_round_nearest_tenth : ∃ v, read ⟨none, 0⟩ "0.1" = .ok v ∧
    Rounds .double (1 / 10) (v.strict .double .round) ∧ Rounds .single (1 / 10) (v.strict .float .round) := by
  have hone : Digits ['1'] := ⟨by simp, by simp⟩
  have hwrites : NumberParts.Writes ⟨false, ['0'], ['1'], 0⟩ "0.1".toList :=
    @NumberParts.Writes.mk false _ _ _ _ _ .zero (.present hone) .present .absent
  have hvalue : NumberParts.value ⟨false, ['0'], ['1'], 0⟩ = 1 / 10 := by
    simp [NumberParts.value, Nat.ofDigitChars]
  obtain ⟨-, hparts⟩ := strict_round_nearest "0.1" 0 (literal_of_writes hwrites)
  obtain ⟨v, hread, hdouble, hsingle⟩ := hparts _ hwrites (.inl (by decide))
  rw [hvalue] at hdouble hsingle
  refine ⟨v, hread, hdouble, hsingle fun htie => ?_⟩
  obtain ⟨⟨z, hz, -⟩, -⟩ := htie
  have hten : (1 : ℚ) = (10 * z : ℤ) := by
    push_cast
    linarith
  have hint : 1 = 10 * z := by exact_mod_cast hten
  omega

/-- The integer halfway between `2 ^ 64` and the next single is rounded up to that one, which is odd. -/
theorem strict_round_tie : ∃ (p : NumberParts) (v : Json), p.Writes "18446745173221179392".toList ∧
    p.value = 18446745173221179392 ∧ read ⟨none, 0⟩ "18446745173221179392" = .ok v ∧
    v.strict .float .round = .ok (.float (.ofBits .single 0x5f800001)) ∧
    ¬Rounds .single p.value (v.strict .float .round) := by
  have hdigits : Digits "18446745173221179392".toList := ⟨by decide, List.all_eq_true.1 (by decide +kernel)⟩
  have hwrites : NumberParts.Writes ⟨false, "18446745173221179392".toList, [], 0⟩ "18446745173221179392".toList :=
    @NumberParts.Writes.mk false _ _ _ _ _ (.digits hdigits (by decide)) .absent .absent .absent
  have hvalue : NumberParts.value ⟨false, "18446745173221179392".toList, [], 0⟩ = 18446745173221179392 := by
    simp [NumberParts.value, Nat.ofDigitChars]
  have hn : Number.ofLiteral "18446745173221179392" none =
      .ok (.double (.ofBits .double 0x43f0000010000000)) := by
    decide +kernel
  have hsingle : (Number.double (.ofBits .double 0x43f0000010000000)).toBinary .single .round =
      .ok (.ofBits .single 0x5f800001) := by
    decide +kernel
  have hstrict : (number (.double (.ofBits .double 0x43f0000010000000))).strict .float .round =
      .ok (.float (.ofBits .single 0x5f800001)) := by
    rw [← Width.scalarType, strict_number, hsingle]
    rfl
  have hup : (Binary.ofBits .single 0x5f800001).toInt? = some 18446746272732807168 := by decide +kernel
  have hdown : (Binary.ofBits .single 0x5f800000).toInt? = some 18446744073709551616 := by decide +kernel
  obtain ⟨-, hup⟩ := Binary.value_of_toInt? hup
  obtain ⟨hfinite, hdown⟩ := Binary.value_of_toInt? hdown
  refine ⟨_, _, hwrites, hvalue, read_literal (literal_of_writes hwrites) hn 0, hstrict, fun hrounds => ?_⟩
  rw [hstrict, hvalue] at hrounds
  generalize hresult : Except.ok (SqlValue.float (.ofBits .single 0x5f800001)) = result at hrounds
  cases hrounds with
  | nearest _ hx =>
    cases hresult
    have heven := hx.even _ hfinite (by rw [hup, hdown]; norm_num) (by rw [hup, hdown]; norm_num [abs_of_neg])
    exact absurd heven (by decide +kernel)
  | overflow => cases hresult

end Json

end SqlJson
