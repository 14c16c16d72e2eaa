import SqlJson.Proofs.Number.WellFormed

/-!
# Equal numbers

Two numbers that are stored alike are compared as they are stored, and others by their decimals. It has to be shown
that the first kind of comparison gives nothing but what the second would give. For floating-point numbers that is so
because the shortest decimal settles the number, up to the sign of zero.

* `Binary.Same`, `Binary.same_of_shortest?`: equal floating-point numbers and their shortest decimals.
* `Number.numericEq_eq`: well-formed numbers are equal if their decimals are the same.
* `Number.isZero_eq`: a number is zero if its decimal is.
* `Number.toDouble_cases`, `Number.exists_decimalToBinary_same`: numbers as floating-point numbers.
-/

namespace SqlJson

open Decimal

variable {w : Width} {d : Decimal} {n m : Number}

namespace Binary

variable {x y : Binary w}

/-- Equal numbers, or two zeros. -/
def Same (x y : Binary w) : Prop := x = y ∨ (x.isZero ∧ y.isZero)

theorem Same.symm (h : x.Same y) : y.Same x := h.imp Eq.symm And.symm

/-- A number of a format holds the shortest decimal of another number, which is the same up to the sign of
zero. -/
theorem exists_lossless?_same (h : x.shortest? = some d) : ∃ y, lossless? w d = some y ∧ y.Same x := by
  cases hz : x.isZero with
  | false => exact ⟨x, lossless?_shortest? h hz, .inl rfl⟩
  | true =>
    rw [shortest?_zero hz] at h
    cases h
    refine ⟨zero, ?_, .inr ⟨?_, hz⟩⟩
    · cases w <;> decide +kernel
    · cases w <;> rfl

/-- **The shortest decimal settles a number** up to the sign of zero. -/
theorem same_of_shortest? (hx : x.shortest? = some d) (hy : y.shortest? = some d) : x.Same y := by
  obtain ⟨a, ha, hax⟩ := exists_lossless?_same hx
  obtain ⟨b, hb, hby⟩ := exists_lossless?_same hy
  obtain rfl : a = b := Option.some.inj (ha.symm.trans hb)
  rcases hax with rfl | ⟨ha0, hx0⟩
  · exact hby
  · rcases hby with rfl | ⟨-, hy0⟩
    · exact .inr ⟨hx0, ha0⟩
    · exact .inr ⟨hx0, hy0⟩

/-- Numeric equality is equality up to the sign of zero. -/
theorem numericEq_of_same (hx : x.isFinite) (h : x.Same y) : x.numericEq y = true := by
  rcases h with rfl | ⟨hx0, hy0⟩
  · exact numericEq_self hx
  · cases x with
    | finite negative i =>
      cases y with
      | finite negative' j =>
        simp only [isZero, decide_eq_true_eq] at hx0 hy0
        simp [numericEq, Fin.ext_iff, hx0, hy0]
      | nan => cases hy0
      | infinity => cases hy0
    | nan => cases hx0
    | infinity => cases hx0

/-- A number is zero if its shortest decimal is. -/
theorem isZero_eq_of_shortest? (h : x.shortest? = some d) : x.isZero = d.isZero := by
  have hzero : (zero : Binary w).isZero = true := by cases w <;> rfl
  have hshortest := shortest?_zero hzero
  rw [Bool.eq_iff_iff]
  constructor
  · intro hz
    rw [shortest?_zero hz] at h
    cases h
    rfl
  · intro hz
    rw [(shortest?_isNormal h).eq_zero (isZero_iff.1 hz)] at h
    rcases same_of_shortest? h hshortest with rfl | ⟨hx, -⟩
    · exact hzero
    · exact hx

end Binary

/-- The decimal of an integer is zero if the integer is. -/
theorem Decimal.isZero_ofInt {z : ℤ} (h : z.natAbs < 10 ^ 38) : (ofInt z).isZero ↔ z = 0 := by
  constructor
  · intro hz
    have hzero : ofInt z = ofInt 0 := (ofParts_isNormal _ _ _).eq_zero (isZero_iff.1 hz)
    exact ofInt_inj h (by norm_num) hzero
  · rintro rfl
    rfl

namespace Number

theorem natAbs_int_lt (value : Int64) : value.toInt.natAbs < 10 ^ 38 := lt_of_ofInt? (ofInt?_toInt value)

theorem natAbs_uint_lt (value : UInt64) : (value.toNat : ℤ).natAbs < 10 ^ 38 := by
  have hlt := value.toNat_lt
  rw [Int.natAbs_natCast]
  omega

/-- **Well-formed numbers are equal if their decimals are the same**, however they are stored. -/
theorem numericEq_eq (hn : n.IsWellFormed) (hm : m.IsWellFormed) :
    n.numericEq m = decide (n.toDecimal = m.toDecimal) := by
  rw [Bool.eq_iff_iff, decide_eq_true_iff]
  refine ⟨toDecimal_eq_of_numericEq, fun h => ?_⟩
  unfold numericEq
  split
  · exact decide_eq_true (Int64.toInt_inj.1 (Decimal.ofInt_inj (natAbs_int_lt _) (natAbs_int_lt _) h))
  · have heq := Decimal.ofInt_inj (natAbs_uint_lt _) (natAbs_uint_lt _) h
    exact decide_eq_true (UInt64.toNat_inj.1 (by exact_mod_cast heq))
  · have hx := toDecimal_double hn
    rw [h] at hx
    exact Binary.numericEq_of_same hn (Binary.same_of_shortest? hx (toDecimal_double hm))
  · exact decide_eq_true h

/-- **A well-formed number is zero if its decimal is.** -/
theorem isZero_eq (hn : n.IsWellFormed) : n.isZero = n.toDecimal.isZero := by
  cases n with
  | int value =>
    rw [Bool.eq_iff_iff, toDecimal, Decimal.isZero_ofInt (natAbs_int_lt value), isZero, decide_eq_true_iff]
    exact Int64.toInt_inj.symm
  | uint value =>
    have hpos : (value.toNat : ℤ) ≠ 0 := by
      have hmax : 0 ≤ Int64.maxValue.toInt := by decide
      have hlt : Int64.maxValue.toInt < value.toNat := hn
      omega
    rw [Bool.eq_iff_iff, toDecimal, Decimal.isZero_ofInt (natAbs_uint_lt value), isZero]
    exact iff_of_false Bool.false_ne_true hpos
  | double x => exact Binary.isZero_eq_of_shortest? (toDecimal_double hn)
  | wide literal value => rfl

/-! ## Floating-point numbers -/

/-- A double is taken as it is, any other number by its decimal. -/
theorem toDouble_cases (n : Number) : (∃ x, n = .double x) ∨
    ∀ mode, n.toDouble mode = decimalToBinary .double n.toDecimal n.text mode := by
  cases n with
  | double x => exact .inl ⟨x, rfl⟩
  | int | uint | wide => exact .inr fun _ => rfl

theorem decimalToBinary_of_lossless? {x : Binary w} {text : String} {mode : WideMode}
    (h : Binary.lossless? w d = some x) : decimalToBinary w d text mode = .ok x := by
  simp only [decimalToBinary, h]

/-- A decimal that is the shortest one of a number is read as that number, up to the sign of zero. -/
theorem exists_decimalToBinary_same {x : Binary w} (h : x.shortest? = some d) (text : String)
    (mode : WideMode) : ∃ y, decimalToBinary w d text mode = .ok y ∧ y.Same x := by
  obtain ⟨y, hy, hsame⟩ := Binary.exists_lossless?_same h
  exact ⟨y, decimalToBinary_of_lossless? hy, hsame⟩

end Number

end SqlJson
