import SqlJson.Proofs.Binary.Widening
import SqlJson.Proofs.Sql.Extraction
import SqlJson.Proofs.Sql.RoundTrip

/-!
# Extraction undoes encoding

A boolean, a number or a string comes back from its JSON form when it is extracted to its own type, and from
the text of that form once it is read. What the text of a number is read as may be stored in another way, but
it has the same decimal, and that is all that extraction asks for.

* `Json.Encodes`: a scalar that gives a value back before and after it is written and read.
* `encodes_toJson`: the JSON form of a value is one.
* `extract_toJson`: extraction undoes encoding.
-/

namespace SqlJson

open Json

variable {z : ℤ} {n : Number} {w : Width} {json : Json} {target : ScalarType} {v : SqlValue}

/-! ## Scalars that are written and read -/

/-- **A scalar that gives a value back**, if it is a number whatever form that is stored in: only its decimal
matters. -/
inductive Json.Encodes (target : ScalarType) (v : SqlValue) : Json → Prop
  | bool {value : Bool} (h : (Json.bool value).Recovers target v) : Encodes target v (.bool value)
  | string {value : String} (h : (Json.string value).Recovers target v) : Encodes target v (.string value)
  | number {n : Number} (hn : n.IsExact)
      (h : ∀ m : Number, m.IsExact → m.toDecimal = n.toDecimal → (Json.number m).Recovers target v) :
    Encodes target v (.number n)

theorem Json.Encodes.recovers (h : json.Encodes target v) : json.Recovers target v := by
  cases h with
  | bool h => exact h
  | string h => exact h
  | number hn h => exact h _ hn rfl

/-- A number that is read back has the same decimal, and again an exact form. -/
theorem Number.reread_exact (h : n.IsExact) : n.reread.IsExact ∧ n.reread.toDecimal = n.toDecimal := by
  obtain ⟨hstored, heq⟩ := reread_spec h
  exact ⟨(isPlain_of_ofLiteral hstored.2).isExact, toDecimal_eq_of_numericEq heq⟩

/-- **What a scalar gives back is there to be read from its texts**, at any depth. -/
theorem Json.Encodes.exists_read (h : json.Encodes target v) :
    ∃ r : Json, r.Recovers target v ∧
      ∀ maxDepth indent, read ⟨some .exact, maxDepth⟩ json.compact = .ok r ∧
        read ⟨some .exact, maxDepth⟩ (json.pretty indent) = .ok r := by
  have hkeys : json.UniqueKeys := by cases h <;> trivial
  have hnesting : json.nesting = 0 := by cases h <;> rfl
  have hnumbers : ∀ n ∈ json.numbers, n.IsExact := by
    cases h with
    | number hn _ => simpa [numbers] using hn
    | _ => simp [numbers]
  refine ⟨json.mapNumbers Number.reread, ?_, fun maxDepth indent =>
    read_compact_and_pretty indent (by omega) hkeys fun n hn => (Number.reread_spec (hnumbers n hn)).1⟩
  cases h with
  | bool h => exact h
  | string h => exact h
  | number hn h => exact h _ (Number.reread_exact hn).1 (Number.reread_exact hn).2

/-! ## JSON forms -/

/-- A number with the decimal of an integer. -/
theorem encodes_integer (hn : Number.ofInt? z = some n) (hv : target.ofInt? z = some v) :
    (number n).Encodes target v :=
  .number (Number.isPlain_of_ofInt? hn).isExact fun _ _ hm =>
    recovers_integer (Number.lt_of_ofInt? hn) hv (hm.trans (Number.toDecimal_of_ofInt? hn))

theorem integerToJson_eq_or (n : Number) (z : ℤ) :
    SqlValue.integerToJson true n z = number n ∨ SqlValue.integerToJson true n z = string (toString z) := by
  unfold SqlValue.integerToJson
  split_ifs
  · exact .inr rfl
  · exact .inl rfl

/-- **The JSON form of an integer** is the number of its value, or its text. -/
theorem exists_integer_toJson (hv : v.type = target.toSqlType) (ht : target.isInteger) :
    ∃ z n, Number.ofInt? z = some n ∧ target.ofInt? z = some v ∧ v.toJson false = number n ∧
      (v.toJson true = number n ∨ v.toJson true = string (toString z)) := by
  cases v with
  | integer value =>
    obtain rfl : target = .integer := by cases target <;> first | rfl | cases hv
    have hlow := value.le_toInt
    have hhigh := value.toInt_lt
    have hn := Number.ofInt?_of_mem (z := value.toInt) (by omega) (by omega)
    exact ⟨_, _, hn, ScalarType.ofInt?_int32 value, rfl, .inl rfl⟩
  | uinteger value =>
    obtain rfl : target = .uinteger := by cases target <;> first | rfl | cases hv
    have hlt := value.toNat_lt
    have hn := Number.ofInt?_of_mem (z := value.toNat) (by omega) (by omega)
    exact ⟨_, _, hn, ScalarType.ofInt?_uint32 value, rfl, .inl rfl⟩
  | bigint value =>
    obtain rfl : target = .bigint := by cases target <;> first | rfl | cases hv
    exact ⟨value.toInt, _, Number.ofInt?_toInt value, ScalarType.ofInt?_int64 value, rfl, integerToJson_eq_or _ _⟩
  | ubigint value =>
    obtain rfl : target = .ubigint := by cases target <;> first | rfl | cases hv
    exact ⟨value.toNat, _, Number.ofInt?_ofUInt64 value, ScalarType.ofInt?_uint64 value, rfl, integerToJson_eq_or _ _⟩
  | _ => cases target <;> first | exact absurd ht (by decide) | cases hv

/-- **The JSON form of a finite floating-point number** is a number with its shortest decimal. -/
theorem exists_toJson_eq_number {x : Binary w} (h : x.isFinite = true) (stringify : Bool) :
    ∃ n, x.toSql.toJson stringify = number n ∧ n.IsExact ∧ x.shortest? = some n.toDecimal := by
  cases w with
  | single =>
    obtain ⟨d, hd⟩ := Binary.exists_shortest? h
    obtain ⟨y, hy⟩ := Binary.exists_double_shortest? hd
    obtain ⟨n, hn, hdecimal, -⟩ := Number.exists_ofDecimal_of_shortest? hy d.plain (some .round)
    refine ⟨n, ?_, (Number.isPlain_of_ofDecimal hn).isExact, by rw [hd, hdecimal]⟩
    rw [Binary.toSql, SqlValue.toJson, hd]
    simp only [Decimal.toJson, hn]
  | double =>
    refine ⟨.double x, ?_, h, Number.toDecimal_double h⟩
    rw [Binary.toSql, SqlValue.toJson, Number.ofDouble?, h]
    rfl

/-- Infinities and NaN are written as texts. -/
theorem toJson_eq_text {x : Binary w} (h : x.isFinite = false) (stringify : Bool) :
    x.toSql.toJson stringify = string x.text := by
  cases w with
  | single => rw [Binary.toSql, SqlValue.toJson, Binary.shortest?_of_not_isFinite h]
  | double =>
    rw [Binary.toSql, SqlValue.toJson, Number.ofDouble?, h]
    rfl

/-- The JSON form of a floating-point number gives it back. -/
theorem encodes_binary (x : Binary w) (stringify : Bool) :
    (x.toSql.toJson stringify).Encodes w.scalarType x.toSql := by
  cases hfin : x.isFinite with
  | false =>
    rw [toJson_eq_text hfin]
    exact .string (recovers_text hfin)
  | true =>
    obtain ⟨n, hjson, hexact, hd⟩ := exists_toJson_eq_number hfin stringify
    rw [hjson]
    exact .number hexact fun m hmexact hm => recovers_binary (by rw [hm, hd]) hmexact

/-- The JSON form of a value that is not an integer gives it back. The setting for wide integers does not matter. -/
theorem encodes_of_not_integer (hv : v.type = target.toSqlType) (ht : target.isInteger = false) (stringify : Bool) :
    (v.toJson stringify).Encodes target v := by
  cases target with
  | bool =>
    cases v with
    | bool value => exact .bool ⟨rfl, fun _ _ => ⟨_, rfl, rfl⟩⟩
    | _ => cases hv
  | varchar =>
    cases v with
    | varchar value => exact .string ⟨rfl, fun _ _ => ⟨_, rfl, rfl⟩⟩
    | _ => cases hv
  | float =>
    cases v with
    | float x => exact encodes_binary x stringify
    | _ => cases hv
  | double =>
    cases v with
    | double x => exact encodes_binary x stringify
    | _ => cases hv
  | integer | bigint | uinteger | ubigint => cases ht

/-- **The JSON form of a value gives it back.** -/
theorem encodes_toJson (hv : v.type = target.toSqlType) : (v.toJson false).Encodes target v := by
  cases ht : target.isInteger with
  | false => exact encodes_of_not_integer hv ht false
  | true =>
    obtain ⟨z, n, hn, hz, hjson, -⟩ := exists_integer_toJson hv ht
    rw [hjson]
    exact encodes_integer hn hz

/-- **Lax extraction gives a value back from either form**: a wide integer may be written as text. -/
theorem lax_toJson (hv : v.type = target.toSqlType) (stringify : Bool) :
    ((v.toJson stringify).lax target).Same v := by
  cases ht : target.isInteger with
  | false => exact (encodes_of_not_integer hv ht stringify).recovers.lax
  | true =>
    cases stringify with
    | false => exact (encodes_toJson hv).recovers.lax
    | true =>
      obtain ⟨z, n, hn, hz, -, hjson | hjson⟩ := exists_integer_toJson hv ht
      · rw [hjson]
        exact (encodes_integer hn hz).recovers.lax
      · rw [hjson, lax_of_laxInteger? (laxInteger?_toString (Number.lt_of_ofInt? hn)) hz]
        exact v.same_refl

/-! ## Extraction undoes encoding -/

/-- **Extraction undoes encoding**, up to the sign of zero, for the types that can be extracted. Lax extraction
takes the JSON form with wide integers as numbers or as texts. Strict extraction takes the one with numbers, in
both modes, for a value that is finite. Both also take what the text of that form is read as, compact or pretty,
and reading it never fails: not in the exact mode, and not in an engine, if the text is not too long for it. -/
theorem extract_toJson (v : SqlValue) (target : ScalarType) (hv : v.type = target.toSqlType) :
    (∀ stringify, ((v.toJson stringify).lax target).Same v) ∧ (v.toJson false).Recovers target v ∧
      ∃ r : Json, r.Recovers target v ∧
        (∀ maxDepth indent, read ⟨some .exact, maxDepth⟩ (v.toJson false).compact = .ok r ∧
          read ⟨some .exact, maxDepth⟩ ((v.toJson false).pretty indent) = .ok r) ∧
        ∀ config cache pretty, ∃ text,
          (Engine.call config "to_json_string" [⟨none, v⟩, ⟨some "pretty_print", .bool pretty⟩]).run.run cache =
              (.ok (.varchar text), cache) ∧
            (text.utf8ByteSize ≤ config.maxInputBytes →
              (Engine.call config "parse_json" [⟨none, .varchar text⟩]).run.run cache = (.ok (.json r), cache)) := by
  have hencodes := encodes_toJson hv
  obtain ⟨r, hr, hread⟩ := hencodes.exists_read
  refine ⟨lax_toJson hv, hencodes.recovers, r, hr, hread, fun config cache pretty => ?_⟩
  refine ⟨_, Engine.call_toJsonString pretty, fun hsize => Engine.call_parseJson hsize ?_⟩
  obtain ⟨hcompact, hpretty⟩ := hread config.maxDepth config.prettyIndent
  cases pretty
  · exact hcompact
  · exact hpretty

/-- A tenth in single precision, which no double equals. -/
theorem extract_toJson_tenth : ∃ v : SqlValue, v = .float (.finite false ⟨1036831949, by decide⟩) ∧
    v.type = ScalarType.float.toSqlType ∧ v.IsFinite ∧
    (∀ stringify, ((v.toJson stringify).lax .float).Same v) ∧ (v.toJson false).Recovers .float v ∧
      ∃ r : Json, r.Recovers .float v ∧
        (∀ maxDepth indent, read ⟨some .exact, maxDepth⟩ (v.toJson false).compact = .ok r ∧
          read ⟨some .exact, maxDepth⟩ ((v.toJson false).pretty indent) = .ok r) ∧
        ∀ config cache pretty, ∃ text,
          (Engine.call config "to_json_string" [⟨none, v⟩, ⟨some "pretty_print", .bool pretty⟩]).run.run cache =
              (.ok (.varchar text), cache) ∧
            (text.utf8ByteSize ≤ config.maxInputBytes →
              (Engine.call config "parse_json" [⟨none, .varchar text⟩]).run.run cache = (.ok (.json r), cache)) :=
  ⟨_, rfl, rfl, rfl, extract_toJson _ .float rfl⟩

end SqlJson
