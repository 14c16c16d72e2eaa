import SqlJson.Proofs.Decimal.Shapes
import SqlJson.Proofs.Json.Classification
import SqlJson.Proofs.Number.LosslessRule
import SqlJson.Sql.Encoding

/-!
# Wide numbers as strings

An SQL value has two JSON forms: one for readers that hold numbers in doubles, where the numbers that these would change
are strings, and a plain one. Both have the same shape, and differ at integers of 64 bits and at decimals only. The first
form loses nothing; in the plain one decimals are rounded to doubles.

* `Decimal.SafeForm`, `Decimal.NearestForm`, `IntegerForms`: what becomes of numbers.
* `SqlValue.Aligned`: two forms of a value, side by side.
* `SqlValue.toJson_aligned`: the two JSON forms of every value.
-/

namespace SqlJson

open Json

variable {d : Decimal} {z : ℤ} {n : Number}

namespace Decimal

/-! ## Decimals -/

/-- **A decimal that a reader of doubles sees as it is**: an integer up to `2 ^ 53`, or no integer, but the shortest
decimal of a double. -/
def IsExactDouble (d : Decimal) : Prop :=
  (∃ z : ℤ, d.value = z ∧ |z| ≤ 2 ^ 53) ∨ (¬∃ z : ℤ, d.value = z) ∧ ∃ x : Binary .double, x.shortest? = some d

/-- **A form that loses nothing of a decimal.** -/
inductive SafeForm (d : Decimal) : Json → Prop
  | number {n : Number} (h : d.IsExactDouble) (hn : n.toDecimal = d) : SafeForm d (.number n)
  | text {s : String} (h : ¬d.IsExactDouble) (hs : ofString? s = some d) : SafeForm d (.string s)

/-- **The form nearest to a decimal**: an integer of 64 bits, unsigned if it is too large to be signed, or the nearest
double, or a text if that is infinite. -/
inductive NearestForm (d : Decimal) : Json → Prop
  | int {value : Int64} (h : d.value = value.toInt) : NearestForm d (.number (.int value))
  | uint {value : UInt64} (hmax : Int64.maxValue.toInt < value.toNat) (h : d.value = value.toNat) :
      NearestForm d (.number (.uint value))
  | double {x : Binary .double} (h : Number.Beyond d.value) (hlt : |d.value| < Width.overflow .double)
      (hx : x.IsNearest d.value) : NearestForm d (.number (.double x))
  | text {s : String} (h : Width.overflow .double ≤ |d.value|) : NearestForm d (.string s)

/-- A decimal with so few digits and so small an exponent that its texts are read back. -/
structure Bounded (d : Decimal) : Prop where
  normal : d.IsNormal
  digits : d.digits.length ≤ 2 ^ 61
  exponent : |d.exponent| ≤ 2 ^ 61

end Decimal

theorem isSafeInteger_iff : isSafeInteger z = true ↔ |z| ≤ 2 ^ 53 := by
  unfold isSafeInteger maxSafeInteger
  rw [Bool.and_eq_true, decide_eq_true_eq, decide_eq_true_eq, abs_le]
  norm_num

namespace Decimal

/-- Zero is an integer, and any other shortest decimal is held by its double. -/
theorem lossless?_of_not_isInteger {x : Binary .double} (hint : ¬d.isInteger = true) (hx : x.shortest? = some d) :
    Binary.lossless? .double d = some x := by
  refine Binary.lossless?_shortest? hx ?_
  by_contra hzero
  rw [Bool.not_eq_false] at hzero
  rw [Binary.shortest?_zero hzero] at hx
  cases hx
  exact hint rfl

theorem isSafe_iff (hd : d.IsNormal) : d.isSafe = true ↔ d.IsExactDouble := by
  unfold isSafe IsExactDouble
  split_ifs with hint
  · obtain ⟨z, hz⟩ := (isInteger_iff_value hd).1 hint
    rw [or_iff_left fun h => h.1 ⟨z, hz⟩, Option.any_eq_true]
    constructor
    · rintro ⟨y, hy, hsafe⟩
      exact ⟨y, value_of_toInt? hd hy, isSafeInteger_iff.1 hsafe⟩
    · rintro ⟨y, hy, hsafe⟩
      exact ⟨y, toInt?_of_value hd hy (by rw [abs_le] at hsafe; omega), isSafeInteger_iff.2 hsafe⟩
  · have hnot := (isInteger_iff_value hd).not.1 hint
    rw [or_iff_right fun ⟨z, hz, _⟩ => hnot ⟨z, hz⟩, and_iff_right hnot, Option.isSome_iff_exists]
    constructor
    · rintro ⟨x, hx⟩
      obtain ⟨-, -, hshortest | ⟨z, hz, -⟩⟩ := Binary.lossless?_spec hx
      · exact ⟨x, hshortest⟩
      · exact absurd (isInteger_of_toInt? hz) hint
    · rintro ⟨x, hx⟩
      exact ⟨x, lossless?_of_not_isInteger hint hx⟩

/-- **The plain form of a decimal is the nearest one.** -/
theorem nearestForm_toJson (hd : d.IsNormal) : d.NearestForm d.toJson := by
  have hclass := Number.classifies hd (fun z _ => Iff.rfl) d.plain (some .round)
  unfold toJson
  by_cases hbeyond : Number.Beyond d.value
  · by_cases hlt : |d.value| < Width.overflow .double
    · obtain ⟨x, hx, hstored⟩ : ∃ x : Binary .double, x.IsNearest d.value ∧
          Number.ofDecimal d d.plain (some .round) = .ok (.double x) := by
        cases hx : Binary.lossless? .double d with
        | none => exact hclass.rounded hbeyond hx rfl hlt
        | some x => exact ⟨x, Binary.isNearest_of_lossless? hx, hclass.double hbeyond x hx⟩
      rw [hstored]
      exact .double hbeyond hlt hx
    · have hnone : Binary.lossless? .double d = none := by
        rw [Option.eq_none_iff_forall_ne_some]
        intro x hx
        obtain ⟨rfl, hfinite, -⟩ := Binary.lossless?_spec hx
        exact hlt (Binary.isFinite_ofDecimal_iff.1 hfinite)
      rw [hclass.infinite hbeyond hnone rfl (not_lt.1 hlt)]
      exact .text (not_lt.1 hlt)
  · unfold Number.Beyond at hbeyond
    push Not at hbeyond
    obtain ⟨z, hz, hlow, hhigh⟩ := hbeyond
    obtain ⟨n, hn⟩ := Number.exists_ofInt? hlow hhigh
    rw [Number.ofDecimal_of_value hd hz hn]
    rcases Number.ofInt?_cases hn with ⟨value, rfl, rfl⟩ | ⟨value, rfl, rfl⟩
    · exact .int hz
    · exact .uint (Number.isPlain_of_ofInt? hn).1 (by exact_mod_cast hz)

/-- A decimal that readers of doubles see as it is has a number as its form. -/
theorem exists_toJson_number (hd : d.IsNormal) (h : d.IsExactDouble) :
    ∃ n, d.toJson = .number n ∧ n.toDecimal = d := by
  unfold toJson
  rcases h with ⟨z, hz, hle⟩ | ⟨hnot, x, hx⟩
  · rw [abs_le] at hle
    obtain ⟨n, hn⟩ := Number.exists_ofInt? (z := z) (by omega) (by omega)
    refine ⟨n, by rw [Number.ofDecimal_of_value hd hz hn], ?_⟩
    rw [Number.toDecimal_of_ofInt? hn]
    exact (eq_ofInt_of_toInt? hd (toInt?_of_value hd hz (Number.lt_of_ofInt? hn))).1.symm
  · have hbeyond : Number.Beyond d.value := fun z hz => absurd ⟨z, hz⟩ hnot
    have hlossless := lossless?_of_not_isInteger ((isInteger_iff_value hd).not.2 hnot) hx
    have hclass := Number.classifies hd (fun z _ => Iff.rfl) d.plain (some .round)
    refine ⟨.double x, ?_, Number.toDecimal_of_shortest? hx⟩
    rw [hclass.double hbeyond x hlossless]

/-- **The form for readers of doubles loses nothing of a decimal.** -/
theorem safeForm (hd : d.Bounded) : d.SafeForm (if !d.isSafe then .string d.plain else d.toJson) := by
  by_cases h : d.IsExactDouble
  · obtain ⟨n, hn, hdecimal⟩ := exists_toJson_number hd.normal h
    rw [(isSafe_iff hd.normal).2 h, Bool.not_true, if_neg Bool.false_ne_true, hn]
    exact .number h hdecimal
  · have hsafe : d.isSafe = false := by rwa [← Bool.not_eq_true, isSafe_iff hd.normal]
    obtain ⟨-, hread⟩ := writtenAs_plain hd.normal (inScale_of_le hd.digits hd.exponent)
    rw [hsafe, Bool.not_false, if_pos rfl]
    refine .text h ?_
    rw [ofString?, plain, String.toList_ofList, hread]

end Decimal

/-! ## Integers of 64 bits -/

/-- **The forms of an integer of 64 bits**, for readers of doubles and plain: a number, but beyond `2 ^ 53` the text of its
digits for these readers. -/
inductive IntegerForms (z : ℤ) : Json → Json → Prop
  | number {n : Number} (h : |z| ≤ 2 ^ 53) (hn : Number.ofInt? z = some n) : IntegerForms z (.number n) (.number n)
  | text {n : Number} (h : 2 ^ 53 < |z|) (hn : Number.ofInt? z = some n) :
      IntegerForms z (.string (toString z)) (.number n)

theorem integerForms (hn : Number.ofInt? z = some n) :
    IntegerForms z (SqlValue.integerToJson true n z) (SqlValue.integerToJson false n z) := by
  unfold SqlValue.integerToJson
  rw [Bool.true_and, Bool.false_and, if_neg Bool.false_ne_true]
  by_cases h : |z| ≤ 2 ^ 53
  · rw [isSafeInteger_iff.2 h, Bool.not_true, if_neg Bool.false_ne_true]
    exact .number h hn
  · have hsafe : isSafeInteger z = false := by rwa [← Bool.not_eq_true, isSafeInteger_iff]
    rw [hsafe, Bool.not_false, if_pos rfl]
    exact .text (not_le.1 h) hn

namespace SqlValue

/-! ## Whole values -/

mutual

/-- **The decimals in a value.** -/
def numerics : SqlValue → List Decimal
  | numeric value => [value]
  | array items => numericsOfItems items
  | struct fields => numericsOfFields fields
  | _ => []

/-- The decimals in the elements of an array. -/
def numericsOfItems : List SqlValue → List Decimal
  | [] => []
  | item :: rest => numerics item ++ numericsOfItems rest

/-- The decimals in the fields of a structure. -/
def numericsOfFields : List (String × SqlValue) → List Decimal
  | [] => []
  | (_, value) :: rest => numerics value ++ numericsOfFields rest

end

mutual

/-- **Two JSON forms of a value, side by side**: one for readers of doubles, and a plain one. They differ at integers of 64
bits and at decimals only. -/
inductive Aligned : SqlValue → Json → Json → Prop
  | bigint {value : Int64} {safe plain : Json} (h : IntegerForms value.toInt safe plain) :
      Aligned (.bigint value) safe plain
  | ubigint {value : UInt64} {safe plain : Json} (h : IntegerForms value.toNat safe plain) :
      Aligned (.ubigint value) safe plain
  | numeric {value : Decimal} {safe plain : Json} (hsafe : value.SafeForm safe) (hplain : value.NearestForm plain) :
      Aligned (.numeric value) safe plain
  | other {v : SqlValue} {json : Json} (h : v.type ∉ [.bigint, .ubigint, .numeric, .array, .struct]) :
      Aligned v json json
  | array {items : List SqlValue} {safe plain : List Json} (h : ItemsAligned items safe plain) :
      Aligned (.array items) (.array safe) (.array plain)
  | struct {fields : List (String × SqlValue)} {safe plain : Members} (h : FieldsAligned fields safe plain) :
      Aligned (.struct fields) (.object safe) (.object plain)

/-- The forms of the elements of an array. -/
inductive ItemsAligned : List SqlValue → List Json → List Json → Prop
  | nil : ItemsAligned [] [] []
  | cons {item : SqlValue} {rest : List SqlValue} {safe plain : Json} {safes plains : List Json}
      (h : Aligned item safe plain) (hrest : ItemsAligned rest safes plains) :
      ItemsAligned (item :: rest) (safe :: safes) (plain :: plains)

/-- The forms of the fields of a structure. Of fields with the same name only the first one is kept. -/
inductive FieldsAligned : List (String × SqlValue) → Members → Members → Prop
  | nil : FieldsAligned [] [] []
  | cons {name : String} {value : SqlValue} {rest : List (String × SqlValue)} {safe plain : Json}
      {safes plains : Members} (h : Aligned value safe plain) (hrest : FieldsAligned rest safes plains) :
      FieldsAligned ((name, value) :: rest) ((name, safe) :: safes.filter (·.1 ≠ name))
        ((name, plain) :: plains.filter (·.1 ≠ name))

end

mutual

/-- **The two JSON forms of a value are aligned.** -/
theorem toJson_aligned : ∀ v : SqlValue, (∀ d ∈ v.numerics, d.Bounded) → v.Aligned (v.toJson true) (v.toJson false)
  | bigint value, _ => .bigint (integerForms (Number.ofInt?_toInt value))
  | ubigint value, _ => .ubigint (integerForms (Number.ofInt?_ofUInt64 value))
  | numeric value, h => by
    have hd := h value List.mem_cons_self
    exact .numeric (Decimal.safeForm hd) (Decimal.nearestForm_toJson hd.normal)
  | array items, h => .array (itemsToJson_aligned items h)
  | struct fields, h => by
    rw [toJson, toJson, ofMembers_eq, ofMembers_eq]
    exact .struct (fieldsToJson_aligned fields h)
  | null, _ | bool _, _ | integer _, _ | uinteger _, _ | float _, _ | double _, _ | varchar _, _ | bytes _, _
  | date _, _ | time _, _ | datetime _, _ | timestamp _, _ | json _, _ => .other (by simp [type])

theorem itemsToJson_aligned : ∀ items : List SqlValue, (∀ d ∈ numericsOfItems items, d.Bounded) →
    ItemsAligned items (itemsToJson true items) (itemsToJson false items)
  | [], _ => .nil
  | item :: rest, h => by
    obtain ⟨hitem, hrest⟩ := List.forall_mem_append.1 h
    exact .cons (toJson_aligned item hitem) (itemsToJson_aligned rest hrest)

theorem fieldsToJson_aligned : ∀ fields : List (String × SqlValue), (∀ d ∈ numericsOfFields fields, d.Bounded) →
    FieldsAligned fields (Grammar.firstOfKeys (fieldsToJson true fields)) (Grammar.firstOfKeys (fieldsToJson false fields))
  | [], _ => .nil
  | (name, value) :: rest, h => by
    obtain ⟨hvalue, hrest⟩ := List.forall_mem_append.1 h
    exact .cons (toJson_aligned value hvalue) (fieldsToJson_aligned rest hrest)

end

/-- A structure with a repeated name, an integer that is too large for doubles, and decimals that doubles hold, round and do
not reach. -/
theorem toJson_aligned_struct :
    let v := struct [("a", bigint 9007199254740993), ("a", null), ("b", array [numeric ⟨false, 1, -1⟩,
      numeric ⟨false, 12345678901234567891, -1⟩, numeric ⟨true, 1, 400⟩])]
    (∀ d ∈ v.numerics, d.Bounded) ∧ v.Aligned (v.toJson true) (v.toJson false) := by
  intro v
  have hv : ∀ d ∈ v.numerics, d.Bounded := by
    rintro d (_ | ⟨_, _ | ⟨_, _ | ⟨_, _ | _⟩⟩⟩)
    · exact ⟨by decide, by decide +kernel, by decide⟩
    · exact ⟨by decide, by decide +kernel, by decide⟩
    · exact ⟨by decide, by decide +kernel, by decide⟩
  exact ⟨hv, toJson_aligned v hv⟩

end SqlValue

end SqlJson
