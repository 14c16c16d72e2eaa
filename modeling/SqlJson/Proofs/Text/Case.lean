import Mathlib
import SqlJson.Text.Case

/-!
# Texts up to their case

* `asciiUpper_eq_iff_sameIgnoringCase`: texts are the same up to the case of their letters if they are the same in
  upper case.
-/

namespace SqlJson.Text

variable {s t : String}

/-- It does not matter in which case two texts are compared. -/
theorem asciiUpper_eq_iff_sameIgnoringCase : asciiUpper s = asciiUpper t ↔ sameIgnoringCase s t = true := by
  rw [sameIgnoringCase, decide_eq_true_iff, asciiUpper, asciiUpper, asciiLower, asciiLower, ← String.toList_inj,
    ← String.toList_inj, String.toList_map, String.toList_map, String.toList_map, String.toList_map]
  constructor
  · intro h
    have hlower := congrArg (List.map Char.toLower) h
    simpa [Function.comp_def] using hlower
  · intro h
    have hupper := congrArg (List.map Char.toUpper) h
    simpa [Function.comp_def] using hupper

/-- A word that is written in upper case is the same in any case. -/
theorem asciiUpper_eq_word_iff {name word upper : String} (h : word.toList.map Char.toUpper = upper.toList) :
    asciiUpper name = upper ↔ sameIgnoringCase name word = true := by
  have hword : asciiUpper word = upper := by
    rw [asciiUpper, ← String.toList_inj, String.toList_map, h]
  rw [← hword, asciiUpper_eq_iff_sameIgnoringCase]

end SqlJson.Text
