import SqlJson.Proofs.Decimal.Value
import SqlJson.Proofs.Json.WellFormed
import SqlJson.Proofs.Sql.Extraction

/-!
# Strict and lax extraction agree

Strict extraction without rounding gives what it gives with rounding, and that is what lax extraction gives, up
to the sign of zero. Where the document is of the type's own kind, strict extraction with rounding gives
everything that lax extraction does.

* `strict_eq_ok_iff_integer`, `strict_eq_ok_iff_binary`: when strict extraction succeeds.
* `strict_round_of_exact`, `lax_same_of_strict`: from the strictest to the most lenient.
* `Json.BelongsTo`, `exists_strict_of_lax`: and back, for documents of the type's own kind.
* `strict_lax_agree`: all of it, for arrays as well.
-/

namespace SqlJson

open SqlJson.Except

variable {w : Width} {n : Number} {d : Decimal} {target : ScalarType} {mode mode' : WideMode} {text : String}
  {v : Json} {x : SqlValue}

/-! ## Numbers as floating-point numbers -/

namespace Number

/-- A number as a floating-point number of a format. -/
def toBinary : (w : Width) → Number → WideMode → Except Error (Binary w)
  | .single, n, mode => n.toSingle mode
  | .double, n, mode => n.toDouble mode

/-- **What is exact is not rounded.** -/
theorem decimalToBinary_round_of_exact {y : Binary w} (h : decimalToBinary w d text .exact = .ok y) :
    decimalToBinary w d text .round = .ok y := by
  unfold decimalToBinary at h ⊢
  split at h
  · exact h
  · cases h

theorem toBinary_round_of_exact {y : Binary w} (h : n.toBinary w .exact = .ok y) :
    n.toBinary w .round = .ok y := by
  cases w with
  | single => exact decimalToBinary_round_of_exact h
  | double =>
    cases n with
    | double value => exact h
    | _ => exact decimalToBinary_round_of_exact h

/-- **Rounding gives what lax conversion gives**: a decimal that a number holds is nearest to that number. -/
theorem decimalToBinary_round_eq_ok_iff {y : Binary w} :
    decimalToBinary w d text .round = .ok y ↔ Json.laxDecimal? w d = some y := by
  unfold decimalToBinary Json.laxDecimal?
  split
  · rename_i z hz
    obtain ⟨hof, hfinite, -⟩ := Binary.lossless?_spec hz
    simp [hof, hfinite]
  · dsimp only
    split_ifs <;> simp

/-- What a number is with rounding is what it is by lax conversion. A double that is stored is taken as it is,
and may be the other zero. -/
theorem exists_laxBinary?_same (hn : n.IsWellFormed) {y : Binary w} (h : n.toBinary w .round = .ok y) :
    ∃ z, (Json.number n).laxBinary? w = some z ∧ z.Same y := by
  have hdecimal : ∀ text, decimalToBinary w n.toDecimal text .round = .ok y →
      ∃ z, (Json.number n).laxBinary? w = some z ∧ z.Same y :=
    fun text h => ⟨y, decimalToBinary_round_eq_ok_iff.1 h, .inl rfl⟩
  cases w with
  | single => exact hdecimal _ h
  | double =>
    cases n with
    | double value =>
      obtain rfl : value = y := Except.ok.inj h
      obtain ⟨z, hz, hsame⟩ := Binary.exists_lossless?_same (toDecimal_double hn)
      exact ⟨z, laxBinary?_of_lossless? hz, hsame⟩
    | _ => exact hdecimal _ h

theorem exists_toBinary_of_laxBinary? {z : Binary w} (h : (Json.number n).laxBinary? w = some z) :
    ∃ y, n.toBinary w .round = .ok y := by
  cases w with
  | single => exact ⟨z, decimalToBinary_round_eq_ok_iff.2 h⟩
  | double =>
    cases n with
    | double value => exact ⟨value, rfl⟩
    | _ => exact ⟨z, decimalToBinary_round_eq_ok_iff.2 h⟩

end Number

/-! ## When strict extraction succeeds -/

theorem ScalarType.cases_kind (target : ScalarType) :
    target = .bool ∨ target = .varchar ∨ target.isInteger = true ∨ ∃ w : Width, target = w.scalarType := by
  cases target
  case float => exact .inr (.inr (.inr ⟨.single, rfl⟩))
  case double => exact .inr (.inr (.inr ⟨.double, rfl⟩))
  all_goals simp [ScalarType.isInteger]

namespace Json

theorem strict_eq_ok_iff_bool : v.strict .bool mode = .ok x ↔ ∃ value, v = bool value ∧ x = .bool value := by
  cases v <;> simp [strict, ScalarType.isInteger, eq_comm]

theorem strict_eq_ok_iff_varchar :
    v.strict .varchar mode = .ok x ↔ ∃ value, v = string value ∧ x = .varchar value := by
  cases v <;> simp [strict, ScalarType.isInteger, eq_comm]

theorem strict_eq_ok_iff_integer (ht : target.isInteger = true) : v.strict target mode = .ok x ↔
    ∃ n z, v = number n ∧ n.toDecimal.toInt? = some z ∧ target.ofInt? z = some x := by
  constructor
  · intro h
    have hinteger : ∃ n, v = number n ∧ strictInteger target n = .ok x := by
      cases target <;> cases ht <;> cases v <;> first | exact ⟨_, rfl, h⟩ | cases h
    obtain ⟨n, rfl, hstrict⟩ := hinteger
    unfold strictInteger at hstrict
    dsimp only at hstrict
    split_ifs at hstrict
    split at hstrict
    · rename_i value hvalue
      cases hstrict
      obtain ⟨z, hz, hx⟩ := Option.bind_eq_some_iff.1 hvalue
      exact ⟨n, z, rfl, hz, hx⟩
    · cases hstrict
  · rintro ⟨n, z, rfl, hz, hx⟩
    exact strict_of_toInt? hz hx

theorem strict_eq_ok_iff_binary : v.strict w.scalarType mode = .ok x ↔
    ∃ n y, v = number n ∧ n.toBinary w mode = .ok y ∧ x = y.toSql := by
  have hnumber : ∀ n, (number n).strict w.scalarType mode = (n.toBinary w mode).map Binary.toSql := by
    intro n
    cases w <;> rfl
  constructor
  · intro h
    have hkind : ∃ n, v = number n := by
      cases v with
      | number n => exact ⟨n, rfl⟩
      | _ => cases w <;> cases h
    obtain ⟨n, rfl⟩ := hkind
    rw [hnumber] at h
    cases hy : n.toBinary w mode with
    | error e =>
      rw [hy] at h
      cases h
    | ok y =>
      rw [hy] at h
      cases h
      exact ⟨n, y, rfl, hy, rfl⟩
  · rintro ⟨n, y, rfl, hy, rfl⟩
    rw [hnumber, hy]
    rfl

/-! ## From the strictest to the most lenient -/

theorem isWellFormed_of_number (h : (number n).IsWellFormed) : n.IsWellFormed := h.2 n List.mem_cons_self

/-- **Without rounding strict extraction gives what it gives with rounding.** -/
theorem strict_round_of_exact (h : v.strict target .exact = .ok x) : v.strict target .round = .ok x := by
  rcases target.cases_kind with rfl | rfl | ht | ⟨w, rfl⟩
  · rwa [strict_eq_ok_iff_bool] at h ⊢
  · rwa [strict_eq_ok_iff_varchar] at h ⊢
  · rwa [strict_eq_ok_iff_integer ht] at h ⊢
  · rw [strict_eq_ok_iff_binary] at h ⊢
    obtain ⟨n, y, hv, hy, hx⟩ := h
    exact ⟨n, y, hv, Number.toBinary_round_of_exact hy, hx⟩

/-- **Lax extraction gives what strict extraction gives**, up to the sign of zero. -/
theorem lax_same_of_strict (hv : v.IsWellFormed) (h : v.strict target .round = .ok x) : (v.lax target).Same x := by
  rcases target.cases_kind with rfl | rfl | ht | ⟨w, rfl⟩
  · obtain ⟨value, rfl, rfl⟩ := strict_eq_ok_iff_bool.1 h
    rfl
  · obtain ⟨value, rfl, rfl⟩ := strict_eq_ok_iff_varchar.1 h
    rfl
  · obtain ⟨n, z, rfl, hz, hx⟩ := (strict_eq_ok_iff_integer ht).1 h
    have hlax : (number n).laxInteger? = some z := Decimal.roundHalfAway?_of_toInt? hz
    rw [lax_of_laxInteger? hlax hx]
    exact x.same_refl
  · obtain ⟨n, y, rfl, hy, rfl⟩ := strict_eq_ok_iff_binary.1 h
    obtain ⟨z, hz, hsame⟩ := Number.exists_laxBinary?_same (isWellFormed_of_number hv) hy
    rw [lax_of_laxBinary? hz]
    exact Binary.toSql_same.2 hsame

/-! ## And back -/

/-- **Documents of the type's own kind**: a truth value, a string or a number, which is to be an integer if the
type is one of integers. -/
def BelongsTo (target : ScalarType) : Json → Prop
  | bool _ => target = .bool
  | string _ => target = .varchar
  | number n =>
    target.isFloating ∨ (target.isInteger ∧ ∃ z : ℤ, n.toDecimal.value = z)
  | _ => False

/-- **Strict extraction gives what lax extraction gives**, for documents of the type's own kind. -/
theorem exists_strict_of_lax (hv : v.IsWellFormed) (hkind : v.BelongsTo target) (h : v.lax target ≠ .null) :
    ∃ x, v.strict target .round = .ok x := by
  cases v with
  | bool value =>
    obtain rfl : target = .bool := hkind
    exact ⟨_, rfl⟩
  | string value =>
    obtain rfl : target = .varchar := hkind
    exact ⟨_, rfl⟩
  | number n =>
    rcases target.cases_kind with rfl | rfl | ht | ⟨w, rfl⟩
    · simp [BelongsTo, ScalarType.isFloating, ScalarType.isInteger] at hkind
    · simp [BelongsTo, ScalarType.isFloating, ScalarType.isInteger] at hkind
    · obtain ⟨z, hz⟩ : ∃ z : ℤ, n.toDecimal.value = z := by
        rcases hkind with hf | ⟨-, hz⟩
        · cases target <;> cases ht <;> cases hf
        · exact hz
      have hnormal := Number.IsWellFormed.isNormal_toDecimal (isWellFormed_of_number hv)
      have hint := (Decimal.isInteger_iff_value hnormal).2 ⟨z, hz⟩
      -- an integer is not rounded
      have hlax : (number n).lax target = (n.toDecimal.toInt?.bind target.ofInt?).getD .null := by
        have hround : (number n).laxInteger? = n.toDecimal.toInt? := by
          rw [laxInteger?, Decimal.roundHalfAway?, if_pos hint]
        rw [← hround, lax_of_isInteger ht]
      cases hbind : n.toDecimal.toInt?.bind target.ofInt? with
      | none => exact absurd (by rw [hlax, hbind, Option.getD_none]) h
      | some x =>
        obtain ⟨z, hz, hx⟩ := Option.bind_eq_some_iff.1 hbind
        exact ⟨x, strict_of_toInt? hz hx⟩
    · cases hz : (number n).laxBinary? w with
      | none =>
        refine absurd ?_ h
        cases w <;> rw [Width.scalarType, lax, hz] <;> rfl
      | some z =>
        obtain ⟨y, hy⟩ := Number.exists_toBinary_of_laxBinary? hz
        exact ⟨y.toSql, strict_eq_ok_iff_binary.2 ⟨n, y, rfl, hy, rfl⟩⟩
  | null | array items | object members => exact hkind.elim

/-! ## Arrays -/

theorem strictArray_eq_ok_iff : v.strictArray target mode = .ok x ↔ ∃ items values, v = array items ∧
    List.Forall₂ (fun item value => item.strict target mode = .ok value) items values ∧ x = .array values := by
  constructor
  · intro h
    cases v with
    | array items =>
      cases hvalues : items.mapM (strict target mode) with
      | error e =>
        rw [strictArray, hvalues] at h
        cases h
      | ok values =>
        rw [strictArray, hvalues] at h
        cases h
        exact ⟨items, values, rfl, mapM_eq_ok_iff.1 hvalues, rfl⟩
    | _ => cases h
  · rintro ⟨items, values, rfl, hvalues, rfl⟩
    rw [strictArray, mapM_eq_ok_iff.2 hvalues]
    rfl

theorem strictArray_round_of_exact (h : v.strictArray target .exact = .ok x) :
    v.strictArray target .round = .ok x := by
  obtain ⟨items, values, hv, hvalues, hx⟩ := strictArray_eq_ok_iff.1 h
  exact strictArray_eq_ok_iff.2 ⟨items, values, hv, hvalues.imp fun _ _ => strict_round_of_exact, hx⟩

theorem laxArray_same_of_strictArray (hv : v.IsWellFormed) (h : v.strictArray target .round = .ok x) :
    ∃ values laxValues, x = .array values ∧ v.laxArray target = .array laxValues ∧
      List.Forall₂ SqlValue.Same laxValues values := by
  obtain ⟨items, values, rfl, hvalues, rfl⟩ := strictArray_eq_ok_iff.1 h
  refine ⟨values, items.map (lax target), rfl, rfl, ?_⟩
  rw [List.forall₂_map_left_iff]
  have hitems : ∀ item ∈ items, item.IsWellFormed := over_array.1 hv
  clear hv h
  induction hvalues with
  | nil => exact .nil
  | cons hvalue _ ih =>
    obtain ⟨hitem, hrest⟩ := List.forall_mem_cons.1 hitems
    exact .cons (lax_same_of_strict hitem hvalue) (ih hrest)

/-- **Strict and lax extraction never disagree.** What strict extraction gives without rounding it gives with
rounding, and that is what lax extraction gives, up to the sign of zero. Back from lax to strict extraction
that holds for documents of the type's own kind. For arrays it holds element by element. -/
theorem strict_lax_agree (target : ScalarType) {v : Json} (hv : v.IsWellFormed) :
    (∀ x, v.strict target .exact = .ok x → v.strict target .round = .ok x) ∧
      (∀ x, v.strict target .round = .ok x → (v.lax target).Same x) ∧
      (v.BelongsTo target → v.lax target ≠ .null →
        ∃ x, v.strict target .round = .ok x ∧ (v.lax target).Same x) ∧
      (∀ x, v.strictArray target .exact = .ok x → v.strictArray target .round = .ok x) ∧
      ∀ x, v.strictArray target .round = .ok x → ∃ values laxValues, x = .array values ∧
        v.laxArray target = .array laxValues ∧ List.Forall₂ SqlValue.Same laxValues values := by
  refine ⟨fun x => strict_round_of_exact, fun x => lax_same_of_strict hv, ?_,
    fun x => strictArray_round_of_exact, fun x => laxArray_same_of_strictArray hv⟩
  intro hkind hnull
  obtain ⟨x, hx⟩ := exists_strict_of_lax hv hkind hnull
  exact ⟨x, hx, lax_same_of_strict hv hx⟩

/-- The two zeros: a negative one is taken as it is by strict extraction, and is the positive one by lax
extraction. -/
theorem strict_lax_agree_zero :
    (number (.double (.ofIndex true 0))).IsWellFormed ∧
      (∃ x, (number (.double (.ofIndex true 0))).strict .double .round = .ok x ∧
        ((number (.double (.ofIndex true 0))).lax .double).Same x) ∧
      ∃ values laxValues, SqlValue.array [.double (.ofIndex true 0)] = .array values ∧
        (array [number (.double (.ofIndex true 0))]).laxArray .double = .array laxValues ∧
          List.Forall₂ SqlValue.Same laxValues values := by
  have hzero : (number (.double (.ofIndex true 0))).IsWellFormed := over_number rfl
  have hitems : (array [number (.double (.ofIndex true 0))]).IsWellFormed :=
    over_array.2 (List.forall_mem_singleton.2 hzero)
  have hlax : (number (.double (.ofIndex true 0))).lax .double = .double .zero := by rfl
  refine ⟨hzero, ?_, ?_⟩
  · exact (strict_lax_agree .double hzero).2.2.1 (.inl rfl) (by rw [hlax]; nofun)
  · exact (strict_lax_agree .double hitems).2.2.2.2 _ rfl

end Json

end SqlJson
