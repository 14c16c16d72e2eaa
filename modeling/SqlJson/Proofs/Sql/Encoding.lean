import SqlJson.Proofs.Json.WellFormed
import SqlJson.Sql.Encoding

/-!
# JSON forms of SQL values are exact

The JSON form of an SQL value has unique keys, and every number that it adds to the documents in the value
is a plain one: what has no exact form is rounded first, or written as text.

* `SqlValue.documents`: the documents in an SQL value, and `Each` what all of them are.
* `over_toJson`: the JSON form of a value, from the documents in it.
* `Json.IsExact`, `SqlValue.IsExact`: a document with unique keys whose numbers all have an exact form, and
  a value with such documents.
* `isExact_toJson`: the JSON form of such a value.
-/

namespace SqlJson

open Json Json.Grammar

variable {stringify : Bool} {Q : Number → Prop}

/-- **A document with unique keys and exact numbers.** -/
def Json.IsExact (v : Json) : Prop := v.UniqueKeys ∧ ∀ n ∈ v.numbers, n.IsExact

/-- The JSON form of a decimal is a plain number or a text. -/
theorem Decimal.over_toJson (hQ : ∀ n : Number, n.IsPlain → Q n) (d : Decimal) : d.toJson.Over Q := by
  unfold toJson
  split
  · rename_i n hn
    exact over_number (hQ n (Number.isPlain_of_ofDecimal hn))
  · exact over_string _

namespace SqlValue

/-! ## Documents in a value -/

mutual

/-- **The documents in an SQL value**, in the order they stand in. -/
def documents : SqlValue → List Json
  | json value => [value]
  | array items => documentsOfItems items
  | struct fields => documentsOfFields fields
  | _ => []

/-- The documents in the elements of an array. -/
def documentsOfItems : List SqlValue → List Json
  | [] => []
  | item :: rest => documents item ++ documentsOfItems rest

/-- The documents in the fields of a structure. -/
def documentsOfFields : List (String × SqlValue) → List Json
  | [] => []
  | (_, value) :: rest => documents value ++ documentsOfFields rest

end

variable {items : List SqlValue} {fields : List (String × SqlValue)} {P : Json → Prop}

/-- **What each document in a value is.** -/
def Each (P : Json → Prop) (v : SqlValue) : Prop := ∀ d ∈ v.documents, P d

theorem each_array : (array items).Each P ↔ ∀ item ∈ items, item.Each P := by
  unfold Each
  rw [documents]
  induction items with
  | nil => simp [documentsOfItems]
  | cons item rest ih => simp [documentsOfItems, or_imp, forall_and, ih]

theorem each_struct : (struct fields).Each P ↔ ∀ field ∈ fields, field.2.Each P := by
  unfold Each
  rw [documents]
  induction fields with
  | nil => simp [documentsOfFields]
  | cons field rest ih => simp [documentsOfFields, or_imp, forall_and, ih]

theorem each_json {value : Json} : (json value).Each P ↔ P value := by
  rw [Each, documents, List.forall_mem_singleton]

/-- A value without documents. -/
theorem each_of_documents_eq_nil {v : SqlValue} (h : v.documents = []) : v.Each P := by
  rw [Each, h]
  exact List.forall_mem_nil P

/-! ## The JSON form -/

theorem over_integerToJson {n : Number} (h : Q n) (value : ℤ) : (integerToJson stringify n value).Over Q := by
  unfold integerToJson
  split_ifs
  · exact over_string _
  · exact over_number h

mutual

/-- **The JSON form of a value** has the numbers of the documents in the value, and beside them only plain
ones. -/
theorem over_toJson (hQ : ∀ n : Number, n.IsPlain → Q n) :
    ∀ v : SqlValue, v.Each (Json.Over Q) → (v.toJson stringify).Over Q
  | null, _ => over_null
  | bool value, _ => over_bool value
  | integer _, _ => over_number (hQ _ (Number.isPlain_int _))
  | bigint value, _ => over_integerToJson (hQ _ (Number.isPlain_int value)) _
  | uinteger _, _ => over_number (hQ _ (Number.isPlain_int _))
  | ubigint value, _ => over_integerToJson (hQ _ (Number.isPlain_ofUInt64 value)) _
  | float value, _ => by
    rw [toJson]
    split
    · exact Decimal.over_toJson hQ _
    · exact over_string _
  | double value, _ => by
    rw [toJson]
    split
    · rename_i n hn
      exact over_number (hQ n (Number.isPlain_of_ofDouble? hn))
    · exact over_string _
  | numeric value, _ => by
    rw [toJson]
    split_ifs
    · exact over_string _
    · exact Decimal.over_toJson hQ value
  | varchar _, _ => over_string _
  | bytes _, _ => over_string _
  | date _, _ => over_string _
  | time _, _ => over_string _
  | datetime _, _ => over_string _
  | timestamp _, _ => over_string _
  | array items, h => by
    rw [toJson, over_array]
    exact over_itemsToJson hQ items (each_array.1 h)
  | struct fields, h => by
    rw [toJson]
    exact over_ofMembers (over_fieldsToJson hQ fields (each_struct.1 h))
  | json value, h => each_json.1 h

theorem over_itemsToJson (hQ : ∀ n : Number, n.IsPlain → Q n) :
    ∀ items : List SqlValue, (∀ item ∈ items, item.Each (Json.Over Q)) →
      ∀ item ∈ itemsToJson stringify items, item.Over Q
  | [], _ => by simp [itemsToJson]
  | item :: rest, h => by
    obtain ⟨hitem, hrest⟩ := List.forall_mem_cons.1 h
    rw [itemsToJson, List.forall_mem_cons]
    exact ⟨over_toJson hQ item hitem, over_itemsToJson hQ rest hrest⟩

theorem over_fieldsToJson (hQ : ∀ n : Number, n.IsPlain → Q n) :
    ∀ fields : List (String × SqlValue), (∀ field ∈ fields, field.2.Each (Json.Over Q)) →
      ∀ m ∈ fieldsToJson stringify fields, m.2.Over Q
  | [], _ => by simp [fieldsToJson]
  | (_, value) :: rest, h => by
    obtain ⟨hvalue, hrest⟩ := List.forall_mem_cons.1 h
    rw [fieldsToJson, List.forall_mem_cons]
    exact ⟨over_toJson hQ value hvalue, over_fieldsToJson hQ rest hrest⟩

end

/-! ## Exact values -/

mutual

/-- **The documents in an SQL value are exact.** -/
def IsExact : SqlValue → Prop
  | json value => value.IsExact
  | array items => ItemsExact items
  | struct fields => FieldsExact fields
  | _ => True

/-- The elements of an array are exact. -/
def ItemsExact : List SqlValue → Prop
  | [] => True
  | item :: rest => IsExact item ∧ ItemsExact rest

/-- The fields of a structure are exact. -/
def FieldsExact : List (String × SqlValue) → Prop
  | [] => True
  | (_, value) :: rest => IsExact value ∧ FieldsExact rest

end

mutual

theorem each_over_of_isExact : ∀ v : SqlValue, v.IsExact → v.Each (Json.Over Number.IsExact)
  | json _, h => each_json.2 h
  | array items, h => each_array.2 (each_over_of_itemsExact items h)
  | struct fields, h => each_struct.2 (each_over_of_fieldsExact fields h)
  | null, _ | bool _, _ | integer _, _ | bigint _, _ | uinteger _, _ | ubigint _, _ | float _, _ | double _, _
  | numeric _, _ | varchar _, _ | bytes _, _ | date _, _ | time _, _ | datetime _, _ | timestamp _, _ =>
    each_of_documents_eq_nil rfl

theorem each_over_of_itemsExact : ∀ items : List SqlValue, ItemsExact items →
    ∀ item ∈ items, item.Each (Json.Over Number.IsExact)
  | [], _ => by simp
  | item :: rest, h => List.forall_mem_cons.2 ⟨each_over_of_isExact item h.1, each_over_of_itemsExact rest h.2⟩

theorem each_over_of_fieldsExact : ∀ fields : List (String × SqlValue), FieldsExact fields →
    ∀ field ∈ fields, field.2.Each (Json.Over Number.IsExact)
  | [], _ => by simp
  | (_, value) :: rest, h =>
    List.forall_mem_cons.2 ⟨each_over_of_isExact value h.1, each_over_of_fieldsExact rest h.2⟩

end

/-- **The JSON form of a value is exact**, if the documents in the value are. -/
theorem isExact_toJson (v : SqlValue) (h : v.IsExact) : (v.toJson stringify).IsExact :=
  over_toJson (fun _ hn => hn.isExact) v (each_over_of_isExact v h)

end SqlValue

end SqlJson
