import SqlJson.Proofs.Binary.Integral
import SqlJson.Proofs.Decimal.HalfAway
import SqlJson.Proofs.Sql.Rounding

/-!
# Numbers by lax extraction

Lax extraction rounds a number to an integer, halves going away from zero, and gives `NULL` if the type has no such
integer. Numbers in strings are converted like numbers. This is not plain, as a number is stored first: an integer beyond
64 bits may be stored as a double with another decimal. That decimal is an integer beyond 64 bits as well.

* `ScalarType.Gives`: what a type makes of an integer.
* `Json.lax_rounds_integers`: lax extraction rounds to integers.
* `Json.lax_string_eq_number`: it makes no difference whether a literal stands in a string.
-/

namespace SqlJson

variable {target : ScalarType} {z : ℤ} {d : Decimal} {n : Number} {x : SqlValue} {json : Json} {text : String}

namespace ScalarType

/-! ## Integer types -/

/-- The values of the integer types, with the integers that they stand for. -/
inductive Holds : ScalarType → ℤ → SqlValue → Prop
  | integer (value : Int32) : Holds .integer value.toInt (.integer value)
  | bigint (value : Int64) : Holds .bigint value.toInt (.bigint value)
  | uinteger (value : UInt32) : Holds .uinteger value.toNat (.uinteger value)
  | ubigint (value : UInt64) : Holds .ubigint value.toNat (.ubigint value)

/-- **What a type makes of an integer**: the value that stands for it, or `NULL` if there is none. -/
def Gives (target : ScalarType) (z : ℤ) (x : SqlValue) : Prop :=
  target.Holds z x ∨ (∀ y, ¬target.Holds z y) ∧ x = .null

theorem holds_iff : target.Holds z x ↔ target.ofInt? z = some x := by
  constructor
  · rintro (value | value | value | value)
    · exact ofInt?_int32 value
    · exact ofInt?_int64 value
    · exact ofInt?_uint32 value
    · exact ofInt?_uint64 value
  · intro h
    unfold ofInt? at h
    split at h
    · rw [Option.ite_none_right_eq_some] at h
      obtain ⟨⟨hmin, hmax⟩, ⟨⟩⟩ := h
      have hholds := Holds.integer (Int32.ofInt z)
      rwa [Int32.toInt_ofInt_of_le hmin (Int.lt_add_one_of_le hmax)] at hholds
    · rw [Option.ite_none_right_eq_some] at h
      obtain ⟨⟨hmin, hmax⟩, ⟨⟩⟩ := h
      have hholds := Holds.bigint (Int64.ofInt z)
      rwa [Int64.toInt_ofInt_of_le hmin (Int.lt_add_one_of_le hmax)] at hholds
    · rw [Option.ite_none_right_eq_some] at h
      obtain ⟨⟨hmin, hmax⟩, ⟨⟩⟩ := h
      have hholds := Holds.uinteger (UInt32.ofNat z.toNat)
      rwa [UInt32.toNat_ofNat_of_lt' (by omega), Int.toNat_of_nonneg hmin] at hholds
    · rw [Option.ite_none_right_eq_some] at h
      obtain ⟨⟨hmin, hmax⟩, ⟨⟩⟩ := h
      have hholds := Holds.ubigint (UInt64.ofNat z.toNat)
      rwa [UInt64.toNat_ofNat_of_lt' (by omega), Int.toNat_of_nonneg hmin] at hholds
    · cases h

theorem gives_ofInt? (target : ScalarType) (z : ℤ) : target.Gives z ((target.ofInt? z).getD .null) := by
  cases h : target.ofInt? z with
  | none =>
    refine .inr ⟨fun y hy => ?_, rfl⟩
    rw [holds_iff, h] at hy
    cases hy
  | some x => exact .inl (holds_iff.2 h)

/-- **The integer types do not reach beyond 64 bits.** -/
theorem ofInt?_eq_none (h : Number.ofInt? z = none) : target.ofInt? z = none := by
  rw [Number.ofInt?_eq_none_iff] at h
  cases hx : target.ofInt? z with
  | none => rfl
  | some x =>
    exfalso
    cases holds_iff.2 hx with
    | integer value =>
      have hmin := value.le_toInt
      have hmax := value.toInt_lt
      omega
    | bigint value =>
      have hmin := value.le_toInt
      have hmax := value.toInt_lt
      omega
    | uinteger value =>
      have hmax := value.toNat_lt
      omega
    | ubigint value =>
      have hmax := value.toNat_lt
      omega

end ScalarType

namespace Json

open Grammar

/-! ## Rounding to integers -/

/-- **What lax extraction makes of a decimal.** From `10 ^ 38` on it is not rounded, and would be beyond 64 bits. -/
theorem lax_gives (ht : target.isInteger = true) (hd : d.IsNormal) (h : json.laxInteger? = d.roundHalfAway?) :
    target.Gives (roundHalfAway d.value) (json.lax target) := by
  have hgives := target.gives_ofInt? (roundHalfAway d.value)
  rw [lax_of_isInteger ht, h, Decimal.roundHalfAway?_eq hd]
  split_ifs with hlt
  · exact hgives
  · have habs : ((10 ^ 38 : ℕ) : ℤ) ≤ |roundHalfAway d.value| := le_abs_roundHalfAway (by exact_mod_cast not_lt.1 hlt)
    have hbeyond : Number.ofInt? (roundHalfAway d.value) = none := by
      rw [Number.ofInt?_eq_none_iff]
      rw [le_abs] at habs
      omega
    rw [ScalarType.ofInt?_eq_none hbeyond] at hgives
    exact hgives

/-- **Lax extraction rounds to integers**, halves going away from zero. Decimals are rounded exactly, and there is no
result from 39 digits on. Every number, and every string that is a decimal, becomes the rounded integer if that is in
the range of the type, and `NULL` otherwise. -/
theorem lax_rounds_integers :
    (∀ d : Decimal, d.IsNormal →
      d.roundHalfAway? = if |d.value| < 10 ^ 38 then some (roundHalfAway d.value) else none) ∧
    ∀ target : ScalarType, target.isInteger = true →
      (∀ n : Number, n.IsWellFormed → target.Gives (roundHalfAway n.toDecimal.value) ((number n).lax target)) ∧
      ∀ text d, Decimal.ofString? text = some d → target.Gives (roundHalfAway d.value) ((string text).lax target) := by
  refine ⟨fun d => Decimal.roundHalfAway?_eq, fun target ht => ⟨fun n hn => ?_, fun text d hd => ?_⟩⟩
  · exact lax_gives ht hn.isNormal_toDecimal rfl
  · refine lax_gives ht (Decimal.ofChars?_isNormal hd) ?_
    rw [laxInteger?, laxNumber?_of_ofString? hd]

/-- Halves: a decimal, a double, and one in a string that is out of range when it is rounded. -/
theorem lax_rounds_integers_half :
    ((⟨true, 25, -1⟩ : Decimal).roundHalfAway? = if |Decimal.value ⟨true, 25, -1⟩| < 10 ^ 38 then
      some (roundHalfAway (Decimal.value ⟨true, 25, -1⟩)) else none) ∧
    ScalarType.integer.Gives (roundHalfAway (Number.double (.ofBits .double 0x4004000000000000)).toDecimal.value)
      ((number (.double (.ofBits .double 0x4004000000000000))).lax .integer) ∧
    ScalarType.uinteger.Gives (roundHalfAway (Decimal.value ⟨true, 5, -1⟩)) ((string "-.5").lax .uinteger) := by
  obtain ⟨hround, hlax⟩ := lax_rounds_integers
  refine ⟨hround _ (by decide), (hlax .integer rfl).1 _ ?_, (hlax .uinteger rfl).2 "-.5" _ (by decide +kernel)⟩
  change (Binary.ofBits .double 0x4004000000000000).isFinite = true
  decide +kernel

/-! ## Numbers in strings -/

/-- Lax extraction sees nothing of a number or a string but how it is rounded to an integer and to a double. -/
theorem lax_string_of_rounded (ht : target.isInteger = true ∨ target = .double) (hd : Decimal.ofString? text = some d)
    (hinteger : n.toDecimal.roundHalfAway?.bind target.ofInt? = d.roundHalfAway?.bind target.ofInt?)
    (hdouble : Binary.ofDecimal .double n.toDecimal = Binary.ofDecimal .double d) :
    (number n).lax target = (string text).lax target := by
  have hread := laxNumber?_of_ofString? hd
  rcases ht with ht | rfl
  · rw [lax_of_isInteger ht, lax_of_isInteger ht, laxInteger?, hinteger, laxInteger?, hread]
  · have hbinary : (number n).laxBinary? .double = (string text).laxBinary? .double := by
      rw [laxBinary?, laxBinary?, hread, laxDecimal?, hdouble]
      rfl
    rw [lax, lax, hbinary]

/-- **The decimal of a double that is an integer beyond 64 bits.** It need not be that integer, but is an integer that is
beyond 64 bits as well, and nearest to the same double. -/
theorem toDecimal_double_of_toInt? {x : Binary .double} (hx : x.toInt? = some z) (hz : Number.ofInt? z = none) :
    (Number.double x).toDecimal.isInteger = true ∧ Binary.ofDecimal .double (Number.double x).toDecimal = x ∧
      ∀ y, (Number.double x).toDecimal.toInt? = some y → Number.ofInt? y = none := by
  obtain ⟨hfinite, hvalue⟩ := Binary.value_of_toInt? hx
  have hshortest := Number.toDecimal_double hfinite
  have hback := (Binary.ofDecimal_shortest? hshortest (Number.isZero_eq_false_of_toInt? hx hz)).1
  exact ⟨Binary.isInteger_of_shortest? hvalue hshortest, hback,
    fun y hy => Binary.ofInt?_eq_none_of_shortest? hx hz hshortest hback hy⟩

/-- **A literal is converted alike** as a number, and in a string. -/
theorem lax_string_eq_number (text : String) (maxDepth : ℕ) (h : Literal text.toList) :
    ∃ n, read ⟨none, maxDepth⟩ text = .ok (number n) ∧ ∀ target : ScalarType,
      target.isInteger = true ∨ target = .double → (number n).lax target = (string text).lax target := by
  obtain ⟨n, hn⟩ := exists_ofLiteral h
  rw [String.ofList_toList] at hn
  refine ⟨n, read_literal h hn maxDepth, fun target ht => ?_⟩
  unfold Number.ofLiteral at hn
  split at hn
  · rename_i d hd
    have hnormal : d.IsNormal := Decimal.ofChars?_isNormal hd
    rcases Number.ofDecimal_none_cases hnormal hn with ⟨hvalue, -⟩ | ⟨x, z, rfl, hx, -, hz, hxz, hbeyond⟩
    · exact lax_string_of_rounded ht hd (by rw [hvalue]) (by rw [hvalue])
    -- neither the integer that is written nor the one that the double is taken for is in the range of a type
    · obtain ⟨hint, hback, hbeyond'⟩ := toDecimal_double_of_toInt? hxz hbeyond
      refine lax_string_of_rounded ht hd ?_ (hback.trans hx.symm)
      rw [Decimal.roundHalfAway?_of_toInt? hz, Option.bind_some, ScalarType.ofInt?_eq_none hbeyond,
        Decimal.roundHalfAway?, if_pos hint, Option.bind_eq_none_iff]
      exact fun y hy => ScalarType.ofInt?_eq_none (hbeyond' y hy)
  · cases hn

/-- The integer `2 ^ 64` is stored as a double, whose decimal is another one. -/
theorem lax_string_eq_number_beyond : ∃ n, read ⟨none, 0⟩ "18446744073709551616" = .ok (number n) ∧
    ∀ target : ScalarType, target.isInteger = true ∨ target = .double →
      (number n).lax target = (string "18446744073709551616").lax target := by
  have hdigits : Digits "18446744073709551616".toList := ⟨by decide, List.all_eq_true.1 (by decide +kernel)⟩
  exact lax_string_eq_number _ 0 (literal_of_writes (@NumberParts.Writes.mk false _ _ _ _ _
    (.digits hdigits (by decide)) .absent .absent .absent))

end Json

end SqlJson
