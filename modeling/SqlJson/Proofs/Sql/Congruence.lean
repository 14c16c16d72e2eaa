import SqlJson.Proofs.Json.Equivalence
import SqlJson.Proofs.Sql.Extraction

/-!
# Equal documents are read alike

Lookup finds equal values in equal documents, and extraction makes the same of them. It sees nothing of a number but
its decimal, apart from the sign of a zero that is stored as a double, and from the text, which is part of errors and
is what becomes of a number as a string.

* `Number.toDouble_agree`, `Number.toSingle_agree`: equal numbers as floating-point numbers.
* `strict_agree`, `lax_eq`: extraction from equal documents.
* `ReadAlike`: what readers make of equal documents.
* `equality_congruence`: equality is an equivalence that readers respect.
-/

namespace SqlJson

open SqlJson.Except

variable {w : Width} {n m : Number} {target : ScalarType} {mode : WideMode}

/-- Errors of the same variant. -/
def Error.SameVariant (e e' : Error) : Prop := e.ctorIdx = e'.ctorIdx

/-- Arrays of the same values, up to the sign of zero. -/
inductive SqlValue.SameElements : SqlValue → SqlValue → Prop
  | mk {values values' : List SqlValue} (h : List.Forall₂ Same values values') :
      SameElements (.array values) (.array values')

/-! ## Numbers -/

namespace Number

/-- The text is part of the error, and of nothing else. -/
theorem decimalToBinary_agree (d : Decimal) (text text' : String) (mode : WideMode) :
    Agree Binary.Same Error.SameVariant (decimalToBinary w d text mode) (decimalToBinary w d text' mode) := by
  unfold decimalToBinary
  cases Binary.lossless? w d with
  | some x => exact .ok (.inl rfl)
  | none =>
    cases mode with
    | exact => exact .error rfl
    | round =>
      dsimp only
      split_ifs
      · exact .ok (.inl rfl)
      · exact .error rfl

theorem toSingle_agree (h : n.toDecimal = m.toDecimal) (mode : WideMode) :
    Agree Binary.Same Error.SameVariant (n.toSingle mode) (m.toSingle mode) := by
  unfold toSingle
  rw [h]
  exact decimalToBinary_agree _ _ _ mode

theorem toDouble_agree (hn : n.IsWellFormed) (hm : m.IsWellFormed) (h : n.toDecimal = m.toDecimal) (mode : WideMode) :
    Agree Binary.Same Error.SameVariant (n.toDouble mode) (m.toDouble mode) := by
  rcases n.toDouble_cases with ⟨x, rfl⟩ | hn'
  · have hx := toDecimal_double hn
    rcases m.toDouble_cases with ⟨y, rfl⟩ | hm'
    · exact .ok (Binary.same_of_shortest? (hx.trans (congrArg some h)) (toDecimal_double hm))
    · rw [hm', ← h]
      obtain ⟨y, hy, hsame⟩ := exists_decimalToBinary_same hx m.text mode
      rw [hy]
      exact .ok hsame.symm
  · rcases m.toDouble_cases with ⟨y, rfl⟩ | hm'
    · rw [hn', h]
      obtain ⟨x, hx, hsame⟩ := exists_decimalToBinary_same (toDecimal_double hm) n.text mode
      rw [hx]
      exact .ok hsame
    · rw [hn', hm', h]
      exact decimalToBinary_agree _ _ _ mode

end Number

namespace Json

variable {a b : Json}

theorem strictInteger_agree (h : n.toDecimal = m.toDecimal) (target : ScalarType) :
    Agree SqlValue.Same Error.SameVariant (strictInteger target n) (strictInteger target m) := by
  unfold strictInteger
  rw [h]
  dsimp only
  split_ifs
  · exact .error rfl
  · cases m.toDecimal.toInt?.bind target.ofInt? with
    | some v => exact .ok v.same_refl
    | none => exact .error rfl

theorem strict_number_agree (hn : n.IsWellFormed) (hm : m.IsWellFormed) (h : n.toDecimal = m.toDecimal)
    (target : ScalarType) (mode : WideMode) :
    Agree SqlValue.Same Error.SameVariant ((number n).strict target mode) ((number m).strict target mode) := by
  cases target with
  | integer | bigint | uinteger | ubigint => exact strictInteger_agree h _
  | float => exact (Number.toSingle_agree h mode).map fun _ _ => id
  | double => exact (Number.toDouble_agree hn hm h mode).map fun _ _ => id
  | bool | varchar => exact .error rfl

theorem lax_number_eq (hn : n.IsWellFormed) (hm : m.IsWellFormed) (h : n.toDecimal = m.toDecimal)
    (htarget : target ≠ .varchar) : (number n).lax target = (number m).lax target := by
  have hzero : n.isZero = m.isZero := by rw [Number.isZero_eq hn, Number.isZero_eq hm, h]
  cases target with
  | varchar => exact absurd rfl htarget
  | bool => simp only [lax, laxBool?, hzero]
  | float | double => simp only [lax, laxBinary?, h]
  | integer | bigint | uinteger | ubigint => simp only [lax, laxInteger?, h]

/-! ## Documents -/

/-- **Strict extraction from equal documents**: equal values up to the sign of zero, or errors of the same variant. -/
theorem strict_agree (h : a.Equal b) (ha : a.IsWellFormed) (hb : b.IsWellFormed) (target : ScalarType)
    (mode : WideMode) : Agree SqlValue.Same Error.SameVariant (a.strict target mode) (b.strict target mode) := by
  obtain ⟨hhead, -⟩ := (equal_iff ha hb).1 h
  have hself : ∀ v : Json, Agree SqlValue.Same Error.SameVariant (v.strict target mode) (v.strict target mode) := by
    intro v
    cases v.strict target mode with
    | ok x => exact .ok x.same_refl
    | error e => exact .error rfl
  cases hhead with
  | number hnumber => exact strict_number_agree ha.number hb.number hnumber target mode
  | null | bool | string => exact hself _
  | array | object => cases target <;> exact .error rfl

/-- **Lax extraction from equal documents.** Only as a string does a number show how it is stored. -/
theorem lax_eq (h : a.Equal b) (ha : a.IsWellFormed) (hb : b.IsWellFormed) (htarget : target ≠ .varchar) :
    a.lax target = b.lax target := by
  obtain ⟨hhead, -⟩ := (equal_iff ha hb).1 h
  cases hhead with
  | number hnumber => exact lax_number_eq ha.number hb.number hnumber htarget
  | null | bool | string => rfl
  | array | object => cases target <;> rfl

/-- What is common to equal documents is common to the elements of equal arrays. -/
theorem rel_elements {as bs : List Json} {R : Json → Json → Prop} (h : (array as).Equal (array bs))
    (ha : (array as).IsWellFormed) (hb : (array bs).IsWellFormed)
    (hR : ∀ v w, v.Equal w → v.IsWellFormed → w.IsWellFormed → R v w) (i : ℕ) : Option.Rel R as[i]? bs[i]? := by
  refine rel_imp (equal_array_iff.1 h i) fun v w hv hw hequal => hR v w hequal ?_ ?_
  · exact over_array.1 ha v (List.mem_of_getElem? hv)
  · exact over_array.1 hb w (List.mem_of_getElem? hw)

/-- **Strict extraction of the elements of equal documents.** -/
theorem strictArray_agree (h : a.Equal b) (ha : a.IsWellFormed) (hb : b.IsWellFormed) (target : ScalarType)
    (mode : WideMode) : Agree SqlValue.SameElements Error.SameVariant (a.strictArray target mode)
      (b.strictArray target mode) := by
  obtain ⟨hhead, -⟩ := (equal_iff ha hb).1 h
  cases hhead with
  | array as bs =>
    have hitems : List.Forall₂ (fun item item' => Agree SqlValue.Same Error.SameVariant (item.strict target mode)
        (item'.strict target mode)) as bs :=
      forall₂_iff_getElem?.2 (rel_elements h ha hb fun v w hequal hv hw => strict_agree hequal hv hw target mode)
    exact (agree_mapM hitems).map fun _ _ => .mk
  | null | bool | number | string | object => exact .error rfl

/-- **Lax extraction of the elements of equal documents.** -/
theorem laxArray_eq (h : a.Equal b) (ha : a.IsWellFormed) (hb : b.IsWellFormed) (htarget : target ≠ .varchar) :
    a.laxArray target = b.laxArray target := by
  obtain ⟨hhead, -⟩ := (equal_iff ha hb).1 h
  cases hhead with
  | array as bs =>
    rw [laxArray, laxArray, SqlValue.array.injEq]
    refine List.ext_getElem? fun i => ?_
    have hitem : Option.Rel (fun v w => v.lax target = w.lax target) as[i]? bs[i]? :=
      rel_elements h ha hb (fun v w hequal hv hw => lax_eq hequal hv hw htarget) i
    rw [List.getElem?_map, List.getElem?_map]
    generalize as[i]? = o at hitem ⊢
    generalize bs[i]? = o' at hitem ⊢
    cases hitem with
    | none => rfl
    | some hlax => exact congrArg some hlax
  | null | bool | number | string | object => rfl

/-- **What readers make of two documents is the same.** -/
structure ReadAlike (a b : Json) : Prop where
  lookup : ∀ path : Path, Option.Rel Equal (path.lookup a) (path.lookup b)
  strict : ∀ target mode,
    Agree SqlValue.Same Error.SameVariant (a.strict target mode) (b.strict target mode)
  strictArray : ∀ target mode,
    Agree SqlValue.SameElements Error.SameVariant (a.strictArray target mode) (b.strictArray target mode)
  lax : ∀ target, target ≠ .varchar → a.lax target = b.lax target
  laxArray : ∀ target, target ≠ .varchar → a.laxArray target = b.laxArray target

/-- Equal documents are read alike. -/
theorem Equal.readAlike (h : a.Equal b) (ha : a.IsWellFormed) (hb : b.IsWellFormed) : a.ReadAlike b where
  lookup path := follow_congr h ha hb path.steps
  strict := strict_agree h ha hb
  strictArray := strictArray_agree h ha hb
  lax _ := lax_eq h ha hb
  laxArray _ := laxArray_eq h ha hb

/-- **Equality of documents is an equivalence that readers respect.** Objects are compared under each key, so that the
order of members does not matter, and arrays element by element. Numbers may be compared as they are stored, and a
container need not be compared with itself: the answer is that of a comparison by decimals and by structure. Lookup finds
equal values in equal documents or nothing in both. Extraction makes the same of them, up to the sign of zero where it is
strict, or fails with errors of the same variant. -/
theorem equality_congruence :
    (Equivalence fun a b : {v : Json // v.IsWellFormed} => a.1.Equal b.1) ∧
    (∀ members others : Members, (object members).IsWellFormed → members.Perm others →
      (object members).Equal (object others)) ∧
    (∀ members others : Members, (object members).IsWellFormed → (object others).IsWellFormed →
      ((object members).Equal (object others) ↔
        ∀ key, Option.Rel Equal (members.lookup key) (others.lookup key))) ∧
    (∀ as bs : List Json, (array as).Equal (array bs) ↔ List.Forall₂ Equal as bs) ∧
    (∀ n m : Number, n.IsWellFormed → m.IsWellFormed → n.numericEq m = decide (n.toDecimal = m.toDecimal)) ∧
    (∀ a b : Json, a.IsWellFormed → b.IsWellFormed → ∀ r, Answers a b r ↔ r = a.same b) ∧
    ∀ a b : Json, a.IsWellFormed → b.IsWellFormed → a.Equal b → a.ReadAlike b := by
  refine ⟨⟨?_, ?_, ?_⟩, ?_, ?_, ?_, ?_, ?_, ?_⟩
  · exact fun a => equal_refl a.2
  · exact fun {a b} h => h.symm a.2 b.2
  · exact fun {a b c} h h' => h.trans h' a.2 b.2 c.2
  · exact fun members others h hperm => equal_of_perm hperm h
  · exact fun members others h h' => equal_object_iff (over_object.1 h).1 (over_object.1 h').1
  · exact fun as bs => equal_array_iff.trans forall₂_iff_getElem?.symm
  · exact fun n m => Number.numericEq_eq
  · exact fun a b ha hb r => answers_iff ha hb
  · exact fun a b ha hb h => h.readAlike ha hb

/-- An object with an integer zero, and one with a double that is a negative zero behind the other member. -/
theorem equality_congruence_zero :
    (object [("a", number (.int 0)), ("b", array [bool true])]).ReadAlike
      (object [("b", array [bool true]), ("a", number (.double (.ofIndex true 0)))]) := by
  have hint : (number (.int 0)).IsWellFormed := over_number trivial
  have hdouble : (number (.double (.ofIndex true 0))).IsWellFormed := over_number rfl
  have harray : (array [bool true]).IsWellFormed := over_array.2 (List.forall_mem_singleton.2 (over_bool true))
  have hfirst : (object [("a", number (.int 0)), ("b", array [bool true])]).IsWellFormed :=
    over_object.2 ⟨by decide, by simpa using ⟨hint, harray⟩⟩
  have hsecond : (object [("b", array [bool true]), ("a", number (.double (.ofIndex true 0)))]).IsWellFormed :=
    over_object.2 ⟨by decide, by simpa using ⟨harray, hdouble⟩⟩
  have hsame : same (object [("a", number (.int 0)), ("b", array [bool true])])
      (object [("b", array [bool true]), ("a", number (.double (.ofIndex true 0)))]) = true := by decide +kernel
  exact equality_congruence.2.2.2.2.2.2 _ _ hfirst hsecond hsame

end Json

end SqlJson
