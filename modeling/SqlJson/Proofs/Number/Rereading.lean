import SqlJson.Proofs.Decimal.Texts
import SqlJson.Proofs.Number.Lossless

/-!
# Numbers read back from their texts

* `storedAs_text`: a number read without rounding is read again, as it is, from the text it is
  written as.
* `exists_storedAs_text`: the text of any number with an exact form is stored as an equal number. It
  need not be stored alike: a double that is an integer of 64 bits comes back as that integer.
-/

namespace SqlJson.Number

open Json.Grammar Json Decimal

variable {n : Number} {d : Decimal} {x : Binary .double} {z : ℤ} {cs : List Char} {literal : String}
  {mode : Option WideMode}

/-- A text is a number of the grammar, and stored as `n`. -/
def StoredAs (mode : Option WideMode) (text : String) (n : Number) : Prop :=
  Literal text.toList ∧ ofLiteral text mode = .ok n

theorem storedAs_of_writtenAs (h : WrittenAs d literal.toList)
    (hn : ofDecimal d literal mode = .ok n) : StoredAs mode literal n := by
  refine ⟨h.1, ?_⟩
  rw [ofLiteral, ofString?, h.2]
  exact hn

/-! ## Integers -/

theorem whole_toDigits (m : ℕ) : Whole (Nat.toDigits 10 m) := by
  rcases eq_or_ne m 0 with rfl | hm
  · exact .zero
  · obtain ⟨c, cs, hcs, hc⟩ := head_toDigits_ne hm
    have hdigit : ∀ x ∈ Nat.toDigits 10 m, x.isDigit := fun x hx =>
      Nat.isDigit_of_mem_toDigits (by norm_num) (by norm_num) hx
    rw [hcs] at hdigit ⊢
    exact .digits ⟨by simp, hdigit⟩ hc

theorem toList_toString (z : ℤ) :
    (toString z).toList = signChars (z < 0) ++ Nat.toDigits 10 z.natAbs := by
  cases z with
  | ofNat m =>
    have hneg : ¬((Int.ofNat m : ℤ) < 0) := by simp
    simp only [signChars, hneg, decide_false, Bool.false_eq_true, if_false, List.nil_append]
    exact Nat.toList_repr
  | negSucc m =>
    have hneg : Int.negSucc m < 0 := Int.negSucc_lt_zero m
    simp only [signChars, hneg, decide_true, if_true]
    have htext : toString (Int.negSucc m) = "-" ++ (m + 1).repr := rfl
    rw [htext, String.toList_append, Nat.toList_repr]
    rfl

/-- **The text of an integer reads back.** -/
theorem writtenAs_toString (z : ℤ) : WrittenAs (Decimal.ofInt z) (toString z).toList := by
  have hw := whole_toDigits z.natAbs
  rw [toList_toString]
  constructor
  · have hs := exists_signChars_iff.1 ⟨decide (z < 0), rfl⟩
    have h := Literal.mk hs hw .absent .absent
    rw [List.append_nil, List.append_nil] at h
    exact h
  · rw [ofChars?_integer hw, Nat.ofDigitChars_ten_toDigits]
    rfl

theorem ofDecimal_ofInt (h : ofInt? z = some n) : ofDecimal (Decimal.ofInt z) literal mode = .ok n := by
  simp only [ofDecimal, toInt?_ofInt (lt_of_ofInt? h), Option.bind_some, h]

theorem storedAs_toString (h : ofInt? z = some n) : StoredAs mode (toString z) n :=
  storedAs_of_writtenAs (writtenAs_toString z) (ofDecimal_ofInt h)

/-! ## Doubles -/

/-- The shortest decimal of a number does not have its first digit far from the point. -/
theorem abs_places_shortest? {w : Width} {x : Binary w} (h : x.shortest? = some d) :
    |(d.digits.length : ℤ) + d.exponent| ≤ w.digitBound := by
  have hbound : 0 ≤ w.digitBound := by cases w <;> decide
  cases hz : x.isZero with
  | true =>
    rw [Binary.shortest?_zero hz] at h
    cases h
    exact hbound
  | false =>
    have hread := (Binary.ofDecimal_shortest? h hz).1
    obtain ⟨-, hlow, hhigh⟩ := Binary.digits_bounds hread hz (Binary.isFinite_of_shortest? h)
    exact abs_le.2 ⟨hlow, hhigh⟩

/-- **The canonical text of the shortest decimal** reads back. -/
theorem writtenAs_shortest? {w : Width} {x : Binary w} (h : x.shortest? = some d) :
    WrittenAs d d.canonical.toList := by
  have hplaces := abs_le.1 (abs_places_shortest? h)
  have hbound : w.digitBound ≤ 400 := by cases w <;> decide
  have hscale : d.InScale := by
    unfold InScale maxExponent
    omega
  rw [canonical, String.toList_ofList]
  exact writtenAs_canonical (Binary.shortest?_isNormal h) hscale

/-- The text of a double is the canonical text of its shortest decimal, which reads back. -/
theorem writtenAs_double (h : x.shortest? = some d) : WrittenAs d (text (.double x)).toList := by
  have htext : text (.double x) = d.canonical := by
    cases x with
    | finite negative i =>
      have : text (.double (.finite negative i)) =
        ((Binary.finite negative i).shortest?.getD Decimal.zero).canonical := rfl
      rw [this, h, Option.getD_some]
    | nan => cases h
    | infinity => cases h
  rw [htext]
  exact writtenAs_shortest? h

/-! ## Stored numbers -/

/-- A stored number is an integer of 64 bits, a double that holds the decimal, or, without a mode,
the literal. -/
theorem ofDecimal_cases (hm : mode ≠ some .round) (h : ofDecimal d literal mode = .ok n) :
    (∃ z, d.toInt? = some z ∧ ofInt? z = some n) ∨
      (d.toInt?.bind ofInt? = none ∧ ∃ x, Binary.lossless? .double d = some x ∧ n = .double x) ∨
      (d.toInt?.bind ofInt? = none ∧ Binary.lossless? .double d = none ∧ n = .wide literal d ∧ mode = none) := by
  unfold ofDecimal at h
  split at h
  · rename_i m hint
    cases h
    obtain ⟨z, hz, hz'⟩ := Option.bind_eq_some_iff.1 hint
    exact .inl ⟨z, hz, hz'⟩
  · rename_i hint
    split at h
    · rename_i y hx
      cases h
      exact .inr (.inl ⟨hint, y, hx, rfl⟩)
    · rename_i hx
      split at h
      · cases h
      · exact absurd rfl hm
      · cases h
        exact .inr (.inr ⟨hint, hx, rfl, rfl⟩)

/-- Zero is an integer of 64 bits. -/
theorem isZero_eq_false (hs : x.shortest? = some d) (hd : d.toInt?.bind ofInt? = none) : x.isZero = false := by
  by_contra hz
  rw [Bool.not_eq_false] at hz
  rw [Binary.shortest?_zero hz] at hs
  cases hs
  exact absurd hd (by decide)

theorem isZero_eq_false_of_toInt? (hxz : x.toInt? = some z) (h : ofInt? z = none) : x.isZero = false := by
  by_contra hz
  rw [Bool.not_eq_false] at hz
  rw [Binary.toInt?_of_isZero hz] at hxz
  cases hxz
  exact absurd h (by decide)

/-- The shortest decimal of a stored double is stored as that double. -/
theorem ofDecimal_shortest? {d' : Decimal} (hd : d.toInt?.bind ofInt? = none)
    (hx : Binary.lossless? .double d = some x) (hs : x.shortest? = some d') :
    ofDecimal d' literal mode = .ok (.double x) := by
  obtain ⟨-, -, hcase⟩ := Binary.lossless?_spec hx
  have hz : x.isZero = false := by
    rcases hcase with hd' | ⟨z, hdz, hxz⟩
    · exact isZero_eq_false hd' hd
    · exact isZero_eq_false_of_toInt? hxz (by rwa [hdz] at hd)
  -- the shortest decimal may be another one, but no integer of 64 bits either
  have hint : d'.toInt?.bind ofInt? = none := by
    rcases hcase with hd' | ⟨z, hdz, hxz⟩
    · rw [hs] at hd'
      cases hd'
      exact hd
    · rw [hdz, Option.bind_some] at hd
      cases hy : d'.toInt? with
      | none => rfl
      | some y =>
        exact Binary.ofInt?_eq_none_of_shortest? hxz hd hs (Binary.ofDecimal_shortest? hs hz).1 hy
  simp only [ofDecimal, hint, Binary.lossless?_shortest? hs hz]

/-- The value of a stored double is its shortest decimal. -/
theorem toDecimal_of_shortest? (hs : x.shortest? = some d) : (double x).toDecimal = d := by
  rw [toDecimal, hs, Option.getD_some]

/-- **The shortest decimal of a double is stored as an equal number**, in any mode. It is an integer if it is
one of 64 bits, and else that double. -/
theorem exists_ofDecimal_of_shortest? (hs : x.shortest? = some d) (literal : String) (mode : Option WideMode) :
    ∃ m, ofDecimal d literal mode = .ok m ∧ m.toDecimal = d ∧ m.numericEq (.double x) = true := by
  cases hint : d.toInt?.bind ofInt? with
  | some m =>
    obtain ⟨z, hz, hm⟩ := Option.bind_eq_some_iff.1 hint
    obtain ⟨rfl, -⟩ := eq_ofInt_of_toInt? (Binary.shortest?_isNormal hs) hz
    exact ⟨m, ofDecimal_ofInt hm, toDecimal_of_ofInt? hm, numericEq_of_ofInt? hm (toDecimal_of_shortest? hs)⟩
  | none =>
    refine ⟨.double x, ?_, toDecimal_of_shortest? hs, Binary.numericEq_self (Binary.isFinite_of_shortest? hs)⟩
    simp only [ofDecimal, hint, Binary.lossless?_shortest? hs (isZero_eq_false hs hint)]

/-- **A number read without rounding reads back from its text**, stored as it was. -/
theorem storedAs_text (hm : mode ≠ some .round) (h : StoredAs mode literal n) :
    StoredAs mode n.text n := by
  obtain ⟨hl, hn⟩ := h
  unfold ofLiteral at hn
  split at hn
  · rcases ofDecimal_cases hm hn with ⟨z, -, hz⟩ | ⟨hd, x, hx, rfl⟩ | ⟨-, -, rfl, -⟩
    · rw [text_of_ofInt? hz]
      exact storedAs_toString hz
    · obtain ⟨d', hs⟩ := Binary.exists_shortest? (Binary.lossless?_spec hx).2.1
      exact storedAs_of_writtenAs (writtenAs_double hs) (ofDecimal_shortest? hd hx hs)
    -- the text is the literal
    · rename_i d hread
      refine ⟨hl, ?_⟩
      rw [text, ofLiteral, hread]
      exact hn
  · cases hn

/-! ## Numbers with an exact form -/

/-- The numbers that have an exact form. -/
def IsExact : Number → Prop
  | .double x => x.isFinite
  | .wide .. => False
  | _ => True

/-- **The text of a number with an exact form is stored as an equal number.** -/
theorem exists_storedAs_text (h : n.IsExact) :
    ∃ m, StoredAs (some .exact) n.text m ∧ m.numericEq n = true := by
  cases n with
  | wide => cases h
  | int value => exact ⟨_, storedAs_toString (ofInt?_toInt value), decide_eq_true rfl⟩
  | uint value =>
    obtain ⟨m, hm⟩ := exists_ofInt?_toNat value
    exact ⟨m, storedAs_toString hm, numericEq_of_ofInt? hm rfl⟩
  | double x =>
    obtain ⟨d, hs⟩ := Binary.exists_shortest? h
    obtain ⟨m, hm, -, heq⟩ := exists_ofDecimal_of_shortest? hs _ _
    exact ⟨m, storedAs_of_writtenAs (writtenAs_double hs) hm, heq⟩

/-- Numbers equal by value are the same decimal. -/
theorem toDecimal_eq_of_numericEq {m : Number} (h : n.numericEq m = true) : n.toDecimal = m.toDecimal := by
  unfold numericEq at h
  split at h
  · rw [of_decide_eq_true h]
  · rw [of_decide_eq_true h]
  · rw [toDecimal, toDecimal, Binary.shortest?_eq_of_numericEq h]
  · exact of_decide_eq_true h

end SqlJson.Number
