import Mathlib.Tactic
import SqlJson.Path.Basic

/-!
# The grammar of path texts

A path text and the steps it stands for, written down without regard to any reader.

* `Escaped`: a name as it is written between quotes.
* `Writes`: the ways to write one step.
* `Denotes`: a whole text and its steps.
-/

namespace SqlJson.Path.Grammar

/-- The characters of a name without quotes: none of the punctuation of paths, and no ASCII white space. -/
def Bare (c : Char) : Prop :=
  c ∉ ['.', '[', ']', '"', '\'', '*'] ∧ c ∉ [' ', '\t', '\n', '\x0c', '\r']

instance (c : Char) : Decidable (Bare c) := inferInstanceAs (Decidable (_ ∧ _))

/-- **A name as it is written between quotes**, and its characters. A backslash stands before the quote or
another backslash only, and the quote only behind a backslash. -/
inductive Escaped (quote : Char) : List Char → List Char → Prop
  | nil : Escaped quote [] []
  | plain {c : Char} {ws cs : List Char} (hq : c ≠ quote) (hb : c ≠ '\\') (h : Escaped quote ws cs) :
      Escaped quote (c :: ws) (c :: cs)
  | escape {c : Char} {ws cs : List Char} (hc : c = quote ∨ c = '\\') (h : Escaped quote ws cs) :
      Escaped quote ('\\' :: c :: ws) (c :: cs)

/-- **The ways to write one step.** -/
inductive Writes : List Char → Step → Prop
  | bare {cs : List Char} (hne : cs ≠ []) (h : ∀ c ∈ cs, Bare c) :
      Writes ('.' :: cs) (.member (String.ofList cs))
  | dotted {ws cs : List Char} (h : Escaped '"' ws cs) :
      Writes ('.' :: '"' :: ws ++ ['"']) (.quoted (String.ofList cs))
  | bracketed {quote : Char} {ws cs : List Char} (hq : quote = '"' ∨ quote = '\'') (h : Escaped quote ws cs) :
      Writes ('[' :: quote :: ws ++ [quote, ']']) (.quoted (String.ofList cs))
  | index {ds : List Char} (hne : ds ≠ []) (hd : ∀ d ∈ ds, d.isDigit)
      (hmax : Nat.ofDigitChars 10 ds 0 ≤ 2 ^ 64 - 1) :
      Writes ('[' :: ds ++ [']']) (.index (Nat.ofDigitChars 10 ds 0))

/-- Steps written one after another. -/
inductive WritesAll : List Char → List Step → Prop
  | nil : WritesAll [] []
  | cons {w ws : List Char} {s : Step} {steps : List Step} (h : Writes w s) (hs : WritesAll ws steps) :
      WritesAll (w ++ ws) (s :: steps)

/-- **A whole text and its steps**: a dollar sign and at most so many steps behind it. -/
def Denotes (maxSteps : ℕ) (text : List Char) (steps : List Step) : Prop :=
  ∃ ws, text = '$' :: ws ∧ WritesAll ws steps ∧ steps.length ≤ maxSteps

variable {v w ws : List Char} {s : Step} {p q steps : List Step}

/-- **Steps put behind steps.** -/
theorem WritesAll.append (hp : WritesAll v p) (hq : WritesAll w q) : WritesAll (v ++ w) (p ++ q) := by
  induction hp with
  | nil => exact hq
  | cons h _ ih =>
    rw [List.append_assoc]
    exact .cons h ih

/-- A step begins with a point or a bracket. -/
theorem writes_head (h : Writes w s) : ∃ c tail, w = c :: tail ∧ (c = '.' ∨ c = '[') := by
  cases h with
  | bare => exact ⟨_, _, rfl, .inl rfl⟩
  | dotted => exact ⟨_, _, rfl, .inl rfl⟩
  | bracketed => exact ⟨_, _, rfl, .inr rfl⟩
  | index => exact ⟨_, _, rfl, .inr rfl⟩

end SqlJson.Path.Grammar
