import Mathlib.Tactic

/-!
# Runs of characters

Readers take the longest run of a class of characters off the front of a text. What they take is
known when the run is given and the text goes on with a character outside the class.

* `Stops`: a text that does not go on with a character of a class.
* `takeWhile_run`, `dropWhile_run`: the run, and what is left.
-/

namespace SqlJson

variable {α : Type} {p q : α → Bool} {run rest : List α}

/-- A text that does not begin with a character of a class. -/
def Stops (p : α → Bool) (rest : List α) : Prop := ∀ c ∈ rest.head?, p c = false

theorem stops_nil : Stops p [] := by simp [Stops]

theorem stops_cons {c : α} : Stops p (c :: rest) ↔ p c = false := by simp [Stops]

theorem Stops.mono (h : Stops p rest) (hq : ∀ c, q c → p c) : Stops q rest := by
  intro c hc
  by_contra hn
  have := h c hc
  have := hq c (by simpa using hn)
  simp_all

theorem takeWhile_run (h : ∀ c ∈ run, p c) (hr : Stops p rest) : (run ++ rest).takeWhile p = run := by
  rw [List.takeWhile_append_of_pos h]
  cases rest with
  | nil => simp
  | cons c rest => simp [stops_cons.1 hr]

theorem dropWhile_run (h : ∀ c ∈ run, p c) (hr : Stops p rest) : (run ++ rest).dropWhile p = rest := by
  rw [List.dropWhile_append_of_pos h]
  cases rest with
  | nil => simp
  | cons c rest => simp [stops_cons.1 hr]

theorem stops_dropWhile (cs : List α) : Stops p (cs.dropWhile p) := by
  intro c hc
  have h := List.head?_dropWhile_not p cs
  rw [Option.mem_def.1 hc] at h
  simpa using h

end SqlJson
