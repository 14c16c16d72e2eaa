import SqlJson.Proofs.Number.Equality
import SqlJson.Sql.Extraction

/-!
# What extraction makes of scalars

Extraction sees nothing of a number but its decimal. An integer or a floating-point number comes back from any
number with its decimal, by strict and by lax extraction, and lax extraction reads it from its text as well.

* `SqlValue.Same`: equality up to the sign of zero.
* `Json.Recovers`: what both kinds of extraction give back.
* `recovers_integer`, `recovers_binary`: numbers by their decimals.
* `laxNumber?_of_ofString?`, `recovers_text`: numbers in strings.
-/

namespace SqlJson

open Json

/-! ## Equality up to the sign of zero -/

/-- **Equality up to the sign of zero.** There is only one NaN. -/
def SqlValue.Same : SqlValue → SqlValue → Prop
  | .float x, .float y => x.Same y
  | .double x, .double y => x.Same y
  | v, v' => v = v'

/-- A value that is no infinity and not NaN. -/
def SqlValue.IsFinite : SqlValue → Prop
  | .float x => x.isFinite
  | .double x => x.isFinite
  | _ => True

theorem Binary.toSql_same {w : Width} {x y : Binary w} : x.toSql.Same y.toSql ↔ x.Same y := by
  cases w <;> rfl

theorem Binary.isFinite_toSql {w : Width} {x : Binary w} : x.toSql.IsFinite ↔ x.isFinite := by
  cases w <;> rfl

theorem SqlValue.same_refl (v : SqlValue) : v.Same v := by
  cases v <;> first | exact .inl rfl | rfl

/-- **What extraction gives back**: lax extraction a value, and strict extraction too if it is finite, in both
modes. -/
structure Json.Recovers (json : Json) (target : ScalarType) (v : SqlValue) : Prop where
  lax : (json.lax target).Same v
  strict : v.IsFinite → ∀ mode, ∃ x, json.strict target mode = .ok x ∧ x.Same v

variable {z : ℤ} {n : Number} {d : Decimal} {w : Width} {json : Json} {target : ScalarType} {v : SqlValue}
  {text : String} {mode : WideMode}

/-! ## Integers -/

theorem Decimal.roundHalfAway?_of_toInt? (h : d.toInt? = some z) : d.roundHalfAway? = some z := by
  rw [roundHalfAway?, if_pos (isInteger_of_toInt? h), h]

theorem ScalarType.ofInt?_int32 (value : Int32) : ofInt? .integer value.toInt = some (.integer value) := by
  rw [ofInt?, if_pos ⟨Int32.minValue_le_toInt value, Int32.toInt_le value⟩, Int32.ofInt_toInt]

theorem ScalarType.ofInt?_int64 (value : Int64) : ofInt? .bigint value.toInt = some (.bigint value) := by
  rw [ofInt?, if_pos ⟨Int64.minValue_le_toInt value, Int64.toInt_le value⟩, Int64.ofInt_toInt]

theorem ScalarType.ofInt?_uint32 (value : UInt32) : ofInt? .uinteger value.toNat = some (.uinteger value) := by
  have hlt : (value.toNat : ℤ) < UInt32.size := by exact_mod_cast value.toNat_lt
  rw [ofInt?, if_pos ⟨by omega, hlt⟩, Int.toNat_natCast, UInt32.ofNat_toNat]

theorem ScalarType.ofInt?_uint64 (value : UInt64) : ofInt? .ubigint value.toNat = some (.ubigint value) := by
  have hlt : (value.toNat : ℤ) < UInt64.size := by exact_mod_cast value.toNat_lt
  rw [ofInt?, if_pos ⟨by omega, hlt⟩, Int.toNat_natCast, UInt64.ofNat_toNat]

theorem ScalarType.isInteger_of_ofInt? (h : target.ofInt? z = some v) : target.isInteger = true := by
  cases target <;> first | rfl | cases h

theorem lax_of_isInteger (ht : target.isInteger = true) :
    json.lax target = (json.laxInteger?.bind target.ofInt?).getD .null := by
  cases target <;> first | rfl | cases ht

/-- An integer is lax extracted as what its type makes of it. -/
theorem lax_of_laxInteger? (h : json.laxInteger? = some z) (hv : target.ofInt? z = some v) :
    json.lax target = v := by
  rw [lax_of_isInteger (ScalarType.isInteger_of_ofInt? hv), h, Option.bind_some, hv, Option.getD_some]

/-- An integer is strictly extracted as what its type makes of it. -/
theorem strict_of_toInt? (h : n.toDecimal.toInt? = some z) (hv : target.ofInt? z = some v) :
    (number n).strict target mode = .ok v := by
  have hstrict : strictInteger target n = .ok v := by
    simp only [strictInteger, Decimal.isInteger_of_toInt? h, h, Option.bind_some, hv, Bool.not_true,
      Bool.false_eq_true, if_false]
  cases target with
  | integer | bigint | uinteger | ubigint => exact hstrict
  | _ => cases hv

/-- **A number with an integer as its decimal** gives back what an integer type makes of it. -/
theorem recovers_integer (hz : z.natAbs < 10 ^ 38) (hv : target.ofInt? z = some v)
    (hn : n.toDecimal = Decimal.ofInt z) : (number n).Recovers target v := by
  have hint : n.toDecimal.toInt? = some z := by rw [hn, Decimal.toInt?_ofInt hz]
  have hlax : (number n).laxInteger? = some z := Decimal.roundHalfAway?_of_toInt? hint
  constructor
  · rw [lax_of_laxInteger? hlax hv]
    exact v.same_refl
  · exact fun _ mode => ⟨v, strict_of_toInt? hint hv, v.same_refl⟩

/-! ## Floating-point numbers -/

/-- The scalar type of the floating-point numbers of a format. -/
def Width.scalarType : Width → ScalarType
  | .single => .float
  | .double => .double

/-- A number is lax extracted as what holds its decimal. -/
theorem laxBinary?_of_lossless? {x : Binary w} (h : Binary.lossless? w n.toDecimal = some x) :
    (number n).laxBinary? w = some x := by
  obtain ⟨hx, hfinite, -⟩ := Binary.lossless?_spec h
  simp only [laxBinary?, laxDecimal?, hx, hfinite, if_true]

theorem lax_of_laxBinary? {x : Binary w} (h : json.laxBinary? w = some x) : json.lax w.scalarType = x.toSql := by
  cases w with
  | single =>
    rw [Width.scalarType, Json.lax, h]
    rfl
  | double =>
    rw [Width.scalarType, Json.lax, h]
    rfl

/-- A number is strictly extracted as what holds its decimal. If it is stored as a double, the double is taken
as it is, which is the same up to the sign of zero. -/
theorem exists_strict_same {x : Binary w} (h : x.shortest? = some n.toDecimal) (hn : n.IsExact) (mode : WideMode) :
    ∃ y : Binary w, (number n).strict w.scalarType mode = .ok y.toSql ∧ y.Same x := by
  obtain ⟨y, hy, hsame⟩ := Number.exists_decimalToBinary_same h n.text mode
  cases w with
  | single =>
    refine ⟨y, ?_, hsame⟩
    rw [Width.scalarType, Json.strict, Number.toSingle, hy]
    rfl
  | double =>
    rcases n.toDouble_cases with ⟨value, rfl⟩ | hdecimal
    · exact ⟨value, rfl, Binary.same_of_shortest? (Number.toDecimal_double hn) h⟩
    · refine ⟨y, ?_, hsame⟩
      rw [Width.scalarType, Json.strict, hdecimal, hy]
      rfl

/-- **A number with the shortest decimal of a floating-point number** gives that back. -/
theorem recovers_binary {x : Binary w} (h : x.shortest? = some n.toDecimal) (hn : n.IsExact) :
    (number n).Recovers w.scalarType x.toSql := by
  constructor
  · obtain ⟨y, hy, hsame⟩ := Binary.exists_lossless?_same h
    rw [lax_of_laxBinary? (laxBinary?_of_lossless? hy)]
    exact Binary.toSql_same.2 hsame
  · intro _ mode
    obtain ⟨y, hy, hsame⟩ := exists_strict_same h hn mode
    exact ⟨y.toSql, hy, Binary.toSql_same.2 hsame⟩

/-! ## Numbers in strings -/

/-- No name of a special value begins with a digit or a point. -/
theorem Binary.Special.ofChars?_cons {c : Char} {cs : List Char} (hc : c.isDigit ∨ c = '.') :
    ofChars? (c :: cs) = none := by
  have hlower : c.toLower = c := by
    rcases hc with hc | rfl
    · simp only [Char.isDigit, Bool.and_eq_true, decide_eq_true_eq] at hc
      unfold Char.toLower
      rw [dif_neg]
      intro h
      exact absurd (UInt32.le_trans h.1 hc.2) (by decide)
    · decide
  have hname : ∀ name : String, name.toList.head?.any (fun c => c.isDigit || c = '.') = false →
      String.ofList ((c :: cs).map Char.toLower) ≠ name := by
    rintro name hhead rfl
    rw [String.toList_ofList, List.map_cons, hlower, List.head?_cons, Option.any_some] at hhead
    simp only [Bool.or_eq_false_iff, decide_eq_false_iff_not] at hhead
    rcases hc with hc | hc
    · exact Bool.false_ne_true (hhead.1.symm.trans hc)
    · exact hhead.2 hc
  unfold ofChars?
  simp only [hname "nan" (by decide), hname "inf" (by decide), hname "infinity" (by decide), if_false, or_self]

/-- **A decimal in a string** is read as it is. -/
theorem laxNumber?_of_ofString? (h : Decimal.ofString? text = some d) : laxNumber? text = some (.inl d) := by
  have hspecial : Binary.Special.ofChars? (Decimal.splitSign text.toList).2 = none := by
    unfold Decimal.ofString? Decimal.ofChars? at h
    dsimp only at h
    generalize (Decimal.splitSign text.toList).2 = body at h
    cases body with
    | nil => rfl
    | cons c rest =>
      refine Binary.Special.ofChars?_cons ?_
      -- neither digits nor a point, so that there is nothing to read
      by_contra hc
      rw [not_or, Bool.not_eq_true] at hc
      have hfraction : Decimal.splitFraction (c :: rest) = ([], c :: rest) := by
        unfold Decimal.splitFraction
        split
        · rename_i heq
          cases heq
          exact absurd rfl hc.2
        · rfl
      rw [List.takeWhile_cons_of_neg (by simp [hc.1]), List.dropWhile_cons_of_neg (by simp [hc.1]), hfraction,
        if_pos ⟨rfl, rfl⟩] at h
      cases h
  simp only [laxNumber?, hspecial, h, Option.map_some]

/-- An integer is read from its text. -/
theorem laxInteger?_toString (hz : z.natAbs < 10 ^ 38) : (string (toString z)).laxInteger? = some z := by
  simp only [laxInteger?, laxNumber?_of_ofString? (Number.writtenAs_toString z).2,
    Decimal.roundHalfAway?_of_toInt? (Decimal.toInt?_ofInt hz)]

/-- **Infinities and NaN are read from their texts.** -/
theorem laxBinary?_text {x : Binary w} (h : x.isFinite = false) : (string x.text).laxBinary? w = some x := by
  cases x with
  | finite => cases h
  | nan =>
    have hread : laxNumber? "NaN" = some (.inr (false, .nan)) := by decide +kernel
    simp only [laxBinary?, Binary.text, hread, Binary.ofSpecial]
  | infinity negative =>
    cases negative with
    | false =>
      have hread : laxNumber? "Infinity" = some (.inr (false, .infinity)) := by decide +kernel
      simp only [laxBinary?, Binary.text, hread, Binary.ofSpecial]
    | true =>
      have hread : laxNumber? "-Infinity" = some (.inr (true, .infinity)) := by decide +kernel
      simp only [laxBinary?, Binary.text, hread, Binary.ofSpecial]

/-- Infinities and NaN come back from their texts, by lax extraction. -/
theorem recovers_text {x : Binary w} (h : x.isFinite = false) : (string x.text).Recovers w.scalarType x.toSql := by
  constructor
  · rw [lax_of_laxBinary? (laxBinary?_text h)]
    exact x.toSql.same_refl
  · intro hfin
    rw [Binary.isFinite_toSql, h] at hfin
    cases hfin

end SqlJson
