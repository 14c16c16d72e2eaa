import SqlJson.Proofs.Binary.Exactness
import SqlJson.Proofs.Decimal.Reading
import SqlJson.Proofs.Number.Lossless

/-!
# The rule of lossless numbers

A number holds a decimal without loss if it is the one nearest to it, and the decimal is its shortest decimal or an
integer equal to it. The test of numbers goes by this rule below a bound, and for shortest decimals above it; above
the bound integers are not compared, so that some of them are refused although a double is equal to them.

* `Binary.Holds`: the rule.
* `Binary.lossless?_eq_some_iff_holds`: the rule, with the bound of the test.
* `Number.ofLiteral_exact_iff_holds`: the literals that are accepted without rounding.
* `Number.lossless_rule`: both, for numbers of both formats.
* `Number.holds_and_refused`: an integer at the bound that a double holds.
-/

namespace SqlJson

variable {w : Width} {d : Decimal}

namespace Binary

variable {x : Binary w}

/-- **A number that holds a decimal without loss**: the one nearest to it, where the decimal is the shortest one of
the number, or an integer that the number is equal to. -/
structure Holds (x : Binary w) (d : Decimal) : Prop where
  nearest : x.IsNearest d.value
  exact : x.shortest? = some d ∨ (∃ z : ℤ, d.value = z) ∧ x.value = d.value

/-- The bound from which on integers are not compared: the number nearest to `10 ^ 38`. -/
theorem value_integerBound : (integerBound .single).value = 99999996802856924650656260769173209088 ∧
    (integerBound .double).value = 99999999999999997748809823456034029568 := by
  have hsingle : (integerBound .single).toInt? = some 99999996802856924650656260769173209088 := by decide +kernel
  have hdouble : (integerBound .double).toInt? = some 99999999999999997748809823456034029568 := by decide +kernel
  exact ⟨(value_of_toInt? hsingle).2, (value_of_toInt? hdouble).2⟩

theorem isFinite_integerBound (w : Width) : (integerBound w).isFinite = true := by
  cases w <;> decide +kernel

/-- Integers below the bound have at most 38 digits. -/
theorem value_integerBound_lt (w : Width) : 0 ≤ (integerBound w).value ∧ (integerBound w).value < 10 ^ 38 := by
  obtain ⟨hsingle, hdouble⟩ := value_integerBound
  cases w with
  | single =>
    rw [hsingle]
    norm_num
  | double =>
    rw [hdouble]
    norm_num

/-- The bound is met by absolute values. -/
theorem magnitude_lt_iff (hx : x.isFinite = true) :
    x.magnitude < (integerBound w).magnitude ↔ |x.value| < (integerBound w).value := by
  rw [← abs_value_lt_iff hx (isFinite_integerBound w), abs_of_nonneg (value_integerBound_lt w).1]

/-- A number is found to hold its shortest decimal. -/
theorem lossless?_of_shortest? (h : x.IsNearest d.value) (hs : x.shortest? = some d) : lossless? w d = some x := by
  by_cases hz : x.isZero = true
  · -- of the two zeros one is nearest to the decimal, which has no sign
    obtain rfl : Decimal.zero = d := Option.some.inj ((shortest?_zero hz).symm.trans hs)
    have hvalue : x.value = Decimal.zero.value := by
      rw [(value_of_toInt? (toInt?_of_isZero hz)).2]
      simp [Decimal.value, Decimal.signed, Decimal.zero]
    unfold lossless?
    simp only [ofDecimal_eq_of_value_eq h hvalue, h.isFinite, hs, Bool.not_true, Bool.false_eq_true, if_false, if_true]
  · exact lossless?_shortest? hs (by simpa using hz)

theorem isNearest_of_lossless? (h : lossless? w d = some x) : x.IsNearest d.value := by
  obtain ⟨rfl, hfinite, -⟩ := lossless?_spec h
  exact isNearest_ofDecimal hfinite

/-- **A number is found to hold a decimal** if it does so by the rule, and the decimal is its shortest one or below a
bound. -/
theorem lossless?_eq_some_iff_holds (hd : d.IsNormal) : lossless? w d = some x ↔
    x.Holds d ∧ (x.shortest? = some d ∨ |d.value| < (integerBound w).value) := by
  constructor
  · intro h
    obtain ⟨hof, hfinite, hexact⟩ := lossless?_spec h
    have hnearest := isNearest_of_lossless? h
    by_cases hs : x.shortest? = some d
    · exact ⟨⟨hnearest, .inl hs⟩, .inl hs⟩
    · obtain ⟨z, hz, hxz⟩ := hexact.resolve_left hs
      have hvalue := Decimal.value_of_toInt? hd hz
      have hxvalue := (value_of_toInt? hxz).2
      refine ⟨⟨hnearest, .inr ⟨⟨z, hvalue⟩, hxvalue.trans hvalue.symm⟩⟩, .inr ?_⟩
      unfold lossless? at h
      simp only [hof, hfinite, hs, Bool.not_true, Bool.false_eq_true, if_false] at h
      rw [Option.ite_none_right_eq_some] at h
      simp only [Bool.and_eq_true, decide_eq_true_eq] at h
      rw [hvalue, ← hxvalue]
      exact (magnitude_lt_iff hfinite).1 h.1.1.1.2
  · rintro ⟨⟨hnearest, hexact⟩, hbound⟩
    by_cases hs : x.shortest? = some d
    · exact lossless?_of_shortest? hnearest hs
    · obtain ⟨⟨z, hz⟩, hvalue⟩ := hexact.resolve_left hs
      have hlt := hbound.resolve_left hs
      have hdigits : z.natAbs < 10 ^ 38 := by
        have h := hlt.trans (value_integerBound_lt w).2
        rw [hz, ← Int.cast_abs, Int.abs_eq_natAbs] at h
        exact_mod_cast h
      have hint := Decimal.toInt?_of_value hd hz hdigits
      have hxint : x.toInt? = some z := toInt?_of_value hnearest.isFinite (hvalue.trans hz)
      have hinteger := (Decimal.isInteger_iff_value hd).2 ⟨z, hz⟩
      have hmagnitude := (magnitude_lt_iff hnearest.isFinite).2 (by rw [hvalue]; exact hlt)
      unfold lossless?
      simp only [ofDecimal_eq_of_value_eq hnearest hvalue, hnearest.isFinite, hs, hinteger, hmagnitude, hint, hxint,
        Bool.not_true, Bool.false_eq_true, if_false, decide_true, Bool.and_self, Option.isSome_some, if_true]

end Binary

namespace Number

/-- **The literals that are accepted without rounding.** A literal that is no integer of 64 bits is accepted if a
double holds it by the rule, but for integers from a bound on, which have to be shortest decimals. -/
theorem ofLiteral_exact_iff_holds {literal : String} (hliteral : Decimal.ofString? literal = some d)
    (hd : ∀ z : ℤ, d.value = z → ofInt? z = none) {n : Number} :
    ofLiteral literal (some .exact) = .ok n ↔ ∃ x : Binary .double, n = .double x ∧ x.Holds d ∧
      (x.shortest? = some d ∨ |d.value| < (Binary.integerBound .double).value) := by
  have hnormal : d.IsNormal := Decimal.ofChars?_isNormal hliteral
  have hnone : d.toInt?.bind ofInt? = none := by
    rw [Option.bind_eq_none_iff]
    exact fun z hz => hd z (Decimal.value_of_toInt? hnormal hz)
  simp only [← Binary.lossless?_eq_some_iff_holds hnormal]
  rw [ofLiteral, hliteral]
  simp only [ofDecimal, hnone]
  cases Binary.lossless? .double d <;> simp [eq_comm]

/-- **The rule of lossless numbers.** In both formats, a number is found to hold a decimal if it does so by the rule,
and the decimal is the shortest one or below the bound of the format. A literal that is no integer of 64 bits is
accepted without rounding if a double is found to hold it. -/
theorem lossless_rule (w : Width) (d : Decimal) (hd : d.IsNormal) :
    (∀ x : Binary w, Binary.lossless? w d = some x ↔
      x.Holds d ∧ (x.shortest? = some d ∨ |d.value| < (Binary.integerBound w).value)) ∧
    ∀ literal, Decimal.ofString? literal = some d → (∀ z : ℤ, d.value = z → ofInt? z = none) → ∀ n,
      ofLiteral literal (some .exact) = .ok n ↔ ∃ x : Binary .double, n = .double x ∧ x.Holds d ∧
        (x.shortest? = some d ∨ |d.value| < (Binary.integerBound .double).value) :=
  ⟨fun _ => Binary.lossless?_eq_some_iff_holds hd,
    fun _ hliteral hbeyond _ => ofLiteral_exact_iff_holds hliteral hbeyond⟩

/-- One half in single precision, and the integer nearest to `10 ^ 23` that is a double. -/
theorem lossless_rule_integer :
    (Binary.ofDecimal .single ⟨false, 5, -1⟩).Holds ⟨false, 5, -1⟩ ∧
    ∃ x : Binary .double, x.Holds (Decimal.ofInt 99999999999999991611392) := by
  have hvalue : (Decimal.ofInt 99999999999999991611392).value = (99999999999999991611392 : ℤ) :=
    Decimal.value_ofInt (by norm_num : (99999999999999991611392 : ℤ).natAbs < 10 ^ 38) (by decide)
  have hbeyond (z : ℤ) (h : (Decimal.ofInt 99999999999999991611392).value = z) : ofInt? z = none := by
    rw [hvalue] at h
    obtain rfl : (99999999999999991611392 : ℤ) = z := by exact_mod_cast h
    decide
  obtain ⟨hsingle, -⟩ := lossless_rule .single ⟨false, 5, -1⟩ (by decide)
  obtain ⟨-, hdouble⟩ := lossless_rule .double (Decimal.ofInt 99999999999999991611392) (by decide +kernel)
  refine ⟨((hsingle _).1 (by decide +kernel)).1, ?_⟩
  obtain ⟨x, -, hx, -⟩ := (hdouble "99999999999999991611392" (by decide +kernel) hbeyond
    (.double (Binary.ofDecimal .double (Decimal.ofInt 99999999999999991611392)))).1 (by decide +kernel)
  exact ⟨x, hx⟩

/-- An integer that a double is equal to is refused where that double is the bound itself. -/
theorem holds_and_refused :
    (∃ x : Binary .double, x.Holds (Decimal.ofInt 99999999999999997748809823456034029568)) ∧
    Binary.lossless? .double (Decimal.ofInt 99999999999999997748809823456034029568) = none ∧
    ofLiteral "99999999999999997748809823456034029568" (some .exact) =
      .error (.precision (.notStorable "99999999999999997748809823456034029568")) := by
  have hfinite : (Binary.ofDecimal .double (Decimal.ofInt 99999999999999997748809823456034029568)).isFinite = true := by
    decide +kernel
  have hint : (Binary.ofDecimal .double (Decimal.ofInt 99999999999999997748809823456034029568)).toInt? =
      some 99999999999999997748809823456034029568 := by
    decide +kernel
  have hvalue : (Decimal.ofInt 99999999999999997748809823456034029568).value =
      (99999999999999997748809823456034029568 : ℤ) :=
    Decimal.value_ofInt (by norm_num : (99999999999999997748809823456034029568 : ℤ).natAbs < 10 ^ 38) (by decide)
  refine ⟨⟨_, Binary.isNearest_ofDecimal hfinite, .inr ⟨⟨_, hvalue⟩, ?_⟩⟩, ?_, ?_⟩
  · rw [(Binary.value_of_toInt? hint).2, hvalue]
  · decide +kernel
  · decide +kernel

end Number

end SqlJson
