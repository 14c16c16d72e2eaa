import SqlJson.Proofs.Number.Rereading

/-!
# Well-formed numbers

Each number has one stored form only if the forms keep to their ranges: unsigned integers above the signed
ones, finite doubles, and literals, word for word, with their values. A plain number is a well-formed one
that is not kept word for word.

* `IsWellFormed`, `IsPlain`: those numbers.
* `isPlain_of_ofInt?`, `isPlain_of_ofDecimal`, `isPlain_of_ofLiteral`: what is stored in a mode is plain.
-/

namespace SqlJson.Number

open Json.Grammar

variable {n : Number} {d : Decimal} {literal : String} {mode : WideMode}

/-- **A well-formed number**: an unsigned integer is greater than every signed one, a double is finite, and
a number kept word for word is a number of the grammar, with its value in normal form. -/
def IsWellFormed : Number → Prop
  | .int _ => True
  | .uint value => Int64.maxValue.toInt < value.toNat
  | .double x => x.isFinite
  | .wide literal value =>
    Literal literal.toList ∧ Decimal.ofString? literal = some value ∧ value.IsNormal

/-- **A plain number**: well formed, and not kept word for word. -/
def IsPlain (n : Number) : Prop := n.IsWellFormed ∧ n.isWide = false

theorem IsPlain.isExact (h : n.IsPlain) : n.IsExact := by
  cases n with
  | int _ => trivial
  | uint _ => trivial
  | double x => exact h.1
  | wide literal value => cases h.2

theorem toDecimal_double {x : Binary .double} (h : x.isFinite) : x.shortest? = some (double x).toDecimal := by
  obtain ⟨d, hd⟩ := Binary.exists_shortest? h
  rw [hd, toDecimal_of_shortest? hd]

/-- The value of a well-formed number is in normal form. -/
theorem IsWellFormed.isNormal_toDecimal (h : n.IsWellFormed) : n.toDecimal.IsNormal := by
  cases n with
  | int value => exact Decimal.ofParts_isNormal _ _ _
  | uint value => exact Decimal.ofParts_isNormal _ _ _
  | double x => exact Binary.shortest?_isNormal (toDecimal_double h)
  | wide literal value => exact h.2.2

/-! ## Stored numbers -/

theorem isPlain_int (value : Int64) : (int value).IsPlain := ⟨trivial, rfl⟩

theorem isPlain_double {x : Binary .double} (h : x.isFinite) : (double x).IsPlain := ⟨h, rfl⟩

/-- **A stored integer is plain**: it is unsigned only if it cannot be signed. -/
theorem isPlain_of_ofInt? {z : ℤ} (h : ofInt? z = some n) : n.IsPlain := by
  rcases ofInt?_cases h with ⟨value, rfl, rfl⟩ | ⟨value, rfl, rfl⟩
  · exact isPlain_int value
  · refine ⟨?_, rfl⟩
    change Int64.maxValue.toInt < _
    by_contra hle
    have hmin : Int64.minValue.toInt ≤ 0 := by decide
    rw [ofInt?, if_pos ⟨by omega, by omega⟩] at h
    cases h

theorem isPlain_ofUInt64 (value : UInt64) : (ofUInt64 value).IsPlain := isPlain_of_ofInt? (ofInt?_ofUInt64 value)

theorem isPlain_of_ofDouble? {x : Binary .double} (h : ofDouble? x = some n) : n.IsPlain := by
  unfold ofDouble? at h
  split_ifs at h with hfin
  cases h
  exact isPlain_double hfin

/-- **A decimal stored in a mode is plain.** -/
theorem isPlain_of_ofDecimal (h : ofDecimal d literal (some mode) = .ok n) : n.IsPlain := by
  unfold ofDecimal at h
  split at h
  · rename_i m hint
    cases h
    obtain ⟨z, -, hz⟩ := Option.bind_eq_some_iff.1 hint
    exact isPlain_of_ofInt? hz
  · split at h
    · rename_i x hx
      cases h
      exact isPlain_double (Binary.lossless?_spec hx).2.1
    · cases mode with
      | exact => cases h
      | round =>
        simp only at h
        split_ifs at h with hfin
        cases h
        exact isPlain_double hfin

theorem isPlain_of_ofLiteral (h : ofLiteral literal (some mode) = .ok n) : n.IsPlain := by
  unfold ofLiteral at h
  split at h
  · exact isPlain_of_ofDecimal h
  · cases h

end SqlJson.Number
