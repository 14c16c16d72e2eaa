import SqlJson.Proofs.Json.Modes
import SqlJson.Proofs.Json.Saturation

/-!
# Numbers stored by their value

The reader of texts tries a number without a point and an exponent as an integer of 64 bits, before it has the literal
classified by its decimal. Both ways agree: a number is stored as an integer whenever its value is one of 64 bits, however
it is written. The decimal has this value, unless an exponent leaves its range; then neither of them is an integer that
could be stored.

* `value_eq_iff_of_writes`: a decimal equals the integers that the text equals.
* `Number.Classifies`: the stored forms of a literal.
* `Json.read_classifies`: every number is stored by its value.
-/

namespace SqlJson

open Json Grammar

variable {cs : List Char} {q : ℚ} {z : ℤ} {d : Decimal} {p : NumberParts} {literal : String} {mode : Option WideMode}

/-- **The decimal of a text equals the integers that the text equals**, as far as they could be stored. -/
theorem value_eq_iff_of_writes (h : p.Writes cs) (hlen : cs.length ≤ maxExponent) (hd : Decimal.ofChars? cs = some d)
    (hz : |z| < 10 ^ 20) : p.value = z ↔ d.value = z := by
  have hroom : HasRoom 0 p := hasRoom_of_writes h (by simpa using hlen)
  exact (approximates_of_writes h (.inl hroom) (by decide) hd).eq_intCast_iff hz

/-! ## The stored forms -/

namespace Number

/-- A value that is no integer of 64 bits. -/
def Beyond (q : ℚ) : Prop := ∀ z : ℤ, q = z → z < -2 ^ 63 ∨ 2 ^ 64 ≤ z

/-- **The stored form of a literal** with a decimal, by a value `q`. An integer of 64 bits is stored as such in all modes,
unsigned if it is too large to be signed. What is none is stored as the double that holds the decimal without loss. If
there is none, it is kept as it is written, or refused, or rounded. -/
structure Classifies (literal : String) (d : Decimal) (q : ℚ) (mode : Option WideMode)
    (outcome : Except Error Number) : Prop where
  int : ∀ value : Int64, q = value.toInt → outcome = .ok (.int value)
  uint : ∀ value : UInt64, Int64.maxValue.toInt < value.toNat → q = value.toNat → outcome = .ok (.uint value)
  double : Beyond q → ∀ x, Binary.lossless? .double d = some x → outcome = .ok (.double x)
  kept : Beyond q → Binary.lossless? .double d = none → mode = none → outcome = .ok (.wide literal d)
  refused : Beyond q → Binary.lossless? .double d = none → mode = some .exact →
    outcome = .error (.precision (.notStorable literal))
  rounded : Beyond q → Binary.lossless? .double d = none → mode = some .round → |d.value| < Width.overflow .double →
    ∃ x, x.IsNearest d.value ∧ outcome = .ok (.double x)
  infinite : Beyond q → Binary.lossless? .double d = none → mode = some .round → Width.overflow .double ≤ |d.value| →
    outcome = .error (.precision (.notRoundable literal))

theorem ofInt?_eq_uint {value : UInt64} (h : Int64.maxValue.toInt < value.toNat) :
    ofInt? value.toNat = some (.uint value) := by
  obtain ⟨n, hn⟩ := exists_ofInt?_toNat value
  rw [hn]
  rcases ofInt?_cases hn with ⟨signed, rfl, hvalue⟩ | ⟨value', rfl, hvalue⟩
  · have hmax := signed.toInt_le
    omega
  · obtain rfl : value' = value := UInt64.toNat_inj.1 (by exact_mod_cast hvalue)
    rfl

theorem ofDecimal_of_value (hd : d.IsNormal) {n : Number} (hvalue : d.value = z) (hn : ofInt? z = some n) :
    ofDecimal d literal mode = .ok n := by
  simp only [ofDecimal, Decimal.toInt?_of_value hd hvalue (lt_of_ofInt? hn), Option.bind_some, hn]

/-- **A decimal is stored by any value that tells the same integers.** -/
theorem classifies (hd : d.IsNormal) (hq : ∀ z : ℤ, |z| < 10 ^ 20 → (q = z ↔ d.value = z)) (literal : String)
    (mode : Option WideMode) : Classifies literal d q mode (ofDecimal d literal mode) := by
  have hnone : Beyond q → d.toInt?.bind ofInt? = none := by
    intro hbeyond
    rw [Option.bind_eq_none_iff]
    intro z hz
    rw [ofInt?_eq_none_iff]
    by_contra hrange
    have hsmall : |z| < 10 ^ 20 := abs_lt.2 ⟨by omega, by omega⟩
    exact hrange (hbeyond z ((hq z hsmall).2 (Decimal.value_of_toInt? hd hz)))
  refine ⟨fun value hvalue => ?_, fun value hmax hvalue => ?_, fun hbeyond x hx => ?_, fun hbeyond hx hmode => ?_,
    fun hbeyond hx hmode => ?_, fun hbeyond hx hmode hlt => ?_, fun hbeyond hx hmode hle => ?_⟩
  · have hlow := value.le_toInt
    have hhigh := value.toInt_lt
    have hsmall : |value.toInt| < 10 ^ 20 := abs_lt.2 ⟨by omega, by omega⟩
    exact ofDecimal_of_value hd ((hq _ hsmall).1 hvalue) (ofInt?_toInt value)
  · have hhigh := value.toNat_lt
    have hsmall : |(value.toNat : ℤ)| < 10 ^ 20 := abs_lt.2 ⟨by omega, by omega⟩
    exact ofDecimal_of_value hd ((hq _ hsmall).1 (by exact_mod_cast hvalue)) (ofInt?_eq_uint hmax)
  · simp only [ofDecimal, hnone hbeyond, hx]
  · simp only [ofDecimal, hnone hbeyond, hx, hmode]
  · simp only [ofDecimal, hnone hbeyond, hx, hmode]
  · have hfinite := Binary.isFinite_ofDecimal_iff.2 hlt
    refine ⟨_, Binary.isNearest_ofDecimal hfinite, ?_⟩
    simp only [ofDecimal, hnone hbeyond, hx, hmode, hfinite, if_true]
  · have hinfinite := Binary.isFinite_ofDecimal_iff.not.2 (not_lt.2 hle)
    simp only [ofDecimal, hnone hbeyond, hx, hmode, hinfinite, Bool.false_eq_true, if_false]

end Number

namespace Json

/-- **Numbers are stored by their value.** In every mode a text that is a number is read as its literal is classified, with
the same error if that fails. It is stored by the value of its decimal, and in a text of less than `2 ^ 63` characters by
the value that is written as well. -/
theorem read_classifies (literal : String) (options : Options) (h : Literal literal.toList) :
    read options literal = (Number.ofLiteral literal options.mode).map number ∧
    ∃ d, Decimal.ofString? literal = some d ∧
      Number.Classifies literal d d.value options.mode (Number.ofLiteral literal options.mode) ∧
      (∃ p : NumberParts, p.Writes literal.toList) ∧
      ∀ p : NumberParts, p.Writes literal.toList → literal.length < 2 ^ 63 →
        Number.Classifies literal d p.value options.mode (Number.ofLiteral literal options.mode) := by
  obtain ⟨p, hp⟩ := exists_writes h
  have hd : Decimal.ofString? literal = some _ := Decimal.ofChars?_of_spelling (spelling_of_writes hp)
  have hnormal := Decimal.ofChars?_isNormal hd
  refine ⟨read_of_literal h options, _, hd, ?_⟩
  rw [Number.ofLiteral_eq hd]
  refine ⟨Number.classifies hnormal (fun z _ => Iff.rfl) _ _, ⟨p, hp⟩, fun p' hp' hlen => ?_⟩
  refine Number.classifies hnormal (fun z hz => value_eq_iff_of_writes hp' ?_ hd hz) _ _
  rw [String.length_toList, maxExponent]
  omega

/-- The greatest integer of 64 bits, with a point and an exponent. -/
theorem read_classifies_greatest : read ⟨some .exact, 0⟩ "1.8446744073709551615e19" =
    .ok (number (.uint 18446744073709551615)) := by
  have hfraction : Digits "8446744073709551615".toList := ⟨by decide, List.all_eq_true.1 (by decide +kernel)⟩
  have hexponent : Digits ['1', '9'] := ⟨by simp, by simp⟩
  have hone : Digits ['1'] := ⟨by simp, by simp⟩
  have hwrites : NumberParts.Writes ⟨false, ['1'], "8446744073709551615".toList, 19⟩
      "1.8446744073709551615e19".toList :=
    @NumberParts.Writes.mk false _ _ _ _ _ (.digits hone (by decide)) (.present hfraction) .present
      (.present (.inl rfl) .absent hexponent)
  have hvalue : NumberParts.value ⟨false, ['1'], "8446744073709551615".toList, 19⟩ =
      (18446744073709551615 : UInt64).toNat := by
    have hdigits : Nat.ofDigitChars 10 (['1'] ++ "8446744073709551615".toList) 0 = 18446744073709551615 := by decide
    have hshift : (19 : ℤ) - "8446744073709551615".toList.length = 0 := by decide
    have hgreatest : (18446744073709551615 : UInt64).toNat = 18446744073709551615 := by decide
    rw [NumberParts.value, hdigits, hshift, hgreatest, zpow_zero, mul_one]
    rfl
  obtain ⟨hread, d, -, -, -, hclassifies⟩ :=
    read_classifies "1.8446744073709551615e19" ⟨some .exact, 0⟩ (literal_of_writes hwrites)
  rw [hread, (hclassifies _ hwrites (by decide)).uint 18446744073709551615 (by decide) hvalue]
  rfl

end Json

end SqlJson
