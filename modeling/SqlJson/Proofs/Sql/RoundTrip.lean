import SqlJson.Proofs.Function.Conversion
import SqlJson.Proofs.Json.Equality
import SqlJson.Proofs.Sql.Encoding

/-!
# SQL values written as JSON texts and read again

The text that `to_json_string` gives for a value is read by `parse_json`, in its exact mode, as a
document equal to what `to_json` gives. A number may come back stored in another way, but its value is
the same.

* `exists_read_exact`: the texts of an exact document are read as equal documents.
* `parse_json_to_json_string`: the same for the calls of an engine.
-/

namespace SqlJson

open Json

/-- A number as it reads back from its text. -/
def Number.reread (n : Number) : Number := ((ofLiteral n.text (some .exact)).toOption).getD n

theorem Number.reread_spec {n : Number} (h : n.IsExact) :
    StoredAs (some .exact) n.text n.reread ∧ n.reread.numericEq n = true := by
  obtain ⟨m, hm, heq⟩ := exists_storedAs_text h
  have hread : n.reread = m := by
    rw [reread, hm.2]
    rfl
  rw [hread]
  exact ⟨hm, heq⟩

/-- **The texts of an exact document are read as equal documents**, and no number fails to be
stored. -/
theorem exists_read_exact {v : Json} {d : ℕ} (h : v.IsExact) (hd : v.nesting ≤ d) (indent : ℕ) :
    ∃ r, read ⟨some .exact, d⟩ v.compact = .ok r ∧ read ⟨some .exact, d⟩ (v.pretty indent) = .ok r ∧
      r.same v = true := by
  obtain ⟨hk, hn⟩ := h
  obtain ⟨hcompact, hpretty⟩ :=
    read_compact_and_pretty indent hd hk fun n hmem => (Number.reread_spec (hn n hmem)).1
  exact ⟨_, hcompact, hpretty, same_mapNumbers hk fun n hmem => (Number.reread_spec (hn n hmem)).2⟩

/-- **Reading the JSON text of an SQL value gives the JSON form of the value.** The value may be of any
type, and the text compact or pretty, with any indentation. The documents in the value have unique
keys and exact numbers, and the text keeps to the limits of the engine. -/
theorem parse_json_to_json_string (config : Config) (cache : PathCache) (v : SqlValue) (pretty : Bool)
    (hv : v.IsExact) (hd : (v.toJson false).nesting ≤ config.maxDepth)
    (hsize : (Engine.jsonString config pretty v).utf8ByteSize ≤ config.maxInputBytes) :
    ∃ text document r,
      (Engine.call config "to_json_string" [⟨none, v⟩, ⟨some "pretty_print", .bool pretty⟩]).run.run cache =
          (.ok (.varchar text), cache) ∧
        (Engine.call config "to_json" [⟨none, v⟩]).run.run cache = (.ok (.json document), cache) ∧
        (Engine.call config "parse_json" [⟨none, .varchar text⟩]).run.run cache = (.ok (.json r), cache) ∧
        r.same document = true := by
  obtain ⟨r, hcompact, hpretty, hsame⟩ :=
    exists_read_exact (SqlValue.isExact_toJson v hv) hd config.prettyIndent
  have hread : read ⟨some .exact, config.maxDepth⟩ (Engine.jsonString config pretty v) = .ok r := by
    unfold Engine.jsonString
    cases pretty
    · exact hcompact
    · exact hpretty
  exact ⟨_, _, r, Engine.call_toJsonString pretty, Engine.call_toJson, Engine.call_parseJson hsize hread,
    hsame⟩

/-- A structure with a repeated name, negative zero, which comes back as an integer, and NaN, which
is written as text. -/
theorem parse_json_to_json_string_struct :
    ∃ text document r,
      (Engine.call .standard "to_json_string" [⟨none, .struct [("a", .double (.finite true ⟨0, by decide⟩)),
          ("a", .null), ("b", .array [.double .nan, .uinteger 7])]⟩, ⟨some "pretty_print", .bool true⟩]).run.run
            (Engine.newCache .standard) = (.ok (.varchar text), Engine.newCache .standard) ∧
        (Engine.call .standard "to_json" [⟨none, .struct [("a", .double (.finite true ⟨0, by decide⟩)),
          ("a", .null), ("b", .array [.double .nan, .uinteger 7])]⟩]).run.run
            (Engine.newCache .standard) = (.ok (.json document), Engine.newCache .standard) ∧
        (Engine.call .standard "parse_json" [⟨none, .varchar text⟩]).run.run
            (Engine.newCache .standard) = (.ok (.json r), Engine.newCache .standard) ∧
        r.same document = true :=
  parse_json_to_json_string _ _ _ _ ⟨trivial, trivial, ⟨trivial, trivial, trivial⟩, trivial⟩
    (by decide +kernel) (by decide +kernel)

end SqlJson
