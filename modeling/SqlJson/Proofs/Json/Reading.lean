import SqlJson.Proofs.Json.Completeness
import SqlJson.Proofs.Json.Soundness

/-!
# The reader accepts the grammar, and builds what it denotes

* `read_of_literal`: a text that is a number is read as its literal is stored.
* `read_eq_ok_iff_denotes`: a text is read as a document iff it denotes it, in every mode.
* `read_eq_ok_iff`: without a mode, acceptance is a matter of the grammar alone.
-/

namespace SqlJson.Json

open Grammar

variable {options : Options} {cs : List Char} {v : Json}

theorem readChars_eq (options : Options) (cs : List Char) : readChars options cs = (do
    let (value, rest) ← readPadded options (2 * cs.length + 1) 0 cs
    match rest with
    | [] => return value
    | rest => .error (.malformed .trailingCharacters rest)) := by
  rw [readChars, readPadded]
  cases readValue options (2 * cs.length + 1) 0 (skipBlanks cs) <;> rfl

/-- **A text is read as a document iff it denotes it.** -/
theorem readChars_eq_ok_iff : readChars options cs = .ok v ↔ Denotes options.mode options.maxDepth cs v := by
  rw [readChars_eq]
  constructor
  · intro h
    obtain ⟨⟨value, r⟩, hv, h'⟩ := Except.bind_eq_ok_iff.1 h
    obtain ⟨w, rfl, hd⟩ := ValueSound.padded (reading_sound options _).1 hv
    simp only at h'
    split at h'
    · cases h'
      rw [List.append_nil]
      exact hd
    · cases h'
  · intro h
    have hread : readPadded options (2 * cs.length + 1) 0 (cs ++ []) = _ :=
      reading_complete h (by omega) (by omega) stops_nil stops_nil
    rw [List.append_nil] at hread
    rw [hread]
    rfl

theorem read_eq_ok_iff_denotes {text : String} :
    read options text = .ok v ↔ Denotes options.mode options.maxDepth text.toList v := by
  rw [← readChars_eq_ok_iff, read]
  cases readChars options text.toList <;> simp [Except.mapError]

/-- **A text that is a number** is read as its literal is stored, or fails as that does. -/
theorem read_of_literal {text : String} (h : Literal text.toList) (options : Options) :
    read options text = (Number.ofLiteral text options.mode).map number := by
  obtain ⟨c, tail, hcs, hc⟩ := literal_head h
  have hblank : skipBlanks (c :: tail) = c :: tail := by
    refine skipBlanks_of_stops (stops_cons.2 ?_)
    rcases hc with rfl | hc
    · decide
    · exact isBlank_of_isDigit hc
  have hnumber := readNumber_literal options.mode h stops_nil
  rw [List.append_nil, String.ofList_toList, hcs] at hnumber
  rw [read, readChars, hcs, hblank, readValue_number hc, hnumber]
  cases Number.ofLiteral text options.mode <;> rfl

/-- **Reading accepts exactly the grammar and builds exactly what it denotes.** Numbers that have
no exact form are kept: then every number of the grammar is stored, so that acceptance is a matter
of the grammar alone. -/
theorem read_eq_ok_iff (maxDepth : ℕ) (text : String) (v : Json) :
    (read ⟨none, maxDepth⟩ text = .ok v ↔ Denotes none maxDepth text.toList v) ∧
      ∀ literal, Literal literal → ∃ n, Number.ofLiteral (String.ofList literal) none = .ok n :=
  ⟨read_eq_ok_iff_denotes, fun _ h => exists_ofLiteral h⟩

end SqlJson.Json
