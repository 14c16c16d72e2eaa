import SqlJson.Error
import SqlJson.Proofs.Text.Place

/-!
# Scanners that follow readers

A reader takes characters off the front of a list. A scanner does the same with the bytes of a text and a place in it,
and can go wrong where it cuts. It follows the reader if it never goes wrong and ends as the reader does, at the same
place.

* `Scanning`: what a scanner gives: an error, or a value.
* `Tracks`: **a scanner that follows a reader**, and how this is put together for sequences.
* `At`, `Behind`: the place of a scanner is that of the reader, and so is what they give.
* `Tracks.run_eq`: a scanner that follows a reader to the end gives what the reader gives.
-/

namespace SqlJson

/-- A scanner goes wrong, ends with an error, or gives a value. -/
abbrev Scanning (α : Type) : Type := ExceptT Error Checked α

/-- A loop that has run too often. -/
def endless {α : Type} : Scanning α := liftM (Except.error Fault.endless : Checked α)

variable {α β γ δ φ : Type} {toError : φ → Error} {R : β → α → Prop} {S : δ → γ → Prop}

/-- A step that does not go wrong. -/
@[simp] theorem liftM_ok_bind (a : α) (k : α → Scanning β) :
    ((liftM (Except.ok a : Checked α) : Scanning α) >>= k) = k a := rfl

/-- **A scanner that follows a reader**: it does not go wrong, and ends with a related value or with the error that the
failure stands for. -/
inductive Tracks (toError : φ → Error) (R : β → α → Prop) : Scanning β → Except φ α → Prop
  | ok {b : β} {a : α} (h : R b a) : Tracks toError R (pure b) (.ok a)
  | error (f : φ) : Tracks toError R (throwThe Error (toError f)) (.error f)

/-- A sequence of two steps follows a sequence of two steps. -/
theorem Tracks.bind {r : Scanning β} {x : Except φ α} {k : β → Scanning δ} {g : α → Except φ γ}
    (h : Tracks toError R r x) (hk : ∀ b a, x = .ok a → R b a → Tracks toError S (k b) (g a)) :
    Tracks toError S (r >>= k) (x >>= g) := by
  cases h with
  | ok h => exact hk _ _ rfl h
  | error f => exact .error f

/-- A reader goes on without a failure after the scanner has ended. -/
theorem Tracks.andThen {T : β → γ → Prop} {r : Scanning β} {x : Except φ α} {g : α → Except φ γ}
    (h : Tracks toError R r x) (hg : ∀ b a, R b a → ∃ c, g a = .ok c ∧ T b c) : Tracks toError T r (x >>= g) := by
  cases h with
  | ok h =>
    obtain ⟨c, hc, hT⟩ := hg _ _ h
    rw [show Except.ok _ >>= g = g _ from rfl, hc]
    exact .ok hT
  | error f => exact .error f

/-- How a scanner ends that follows a reader. -/
theorem Tracks.run_eq {r : Scanning β} {x : Except φ β} (h : Tracks toError (· = ·) r x) :
    r.run = .ok (x.mapError toError) := by
  cases h with
  | ok h =>
    subst h
    rfl
  | error f => rfl

namespace Text

/-- **The same value at the same place.** -/
def At (text : String) (r : α × Nat) (x : α × List Char) : Prop := r.1 = x.1 ∧ Place text r.2 x.2

/-- **The same characters at the same place**, behind what has been put together before. -/
def Behind (text before : String) (r : String × Nat) (x : List Char × List Char) : Prop :=
  r.1 = before ++ String.ofList x.1 ∧ Place text r.2 x.2

end Text

open Text

variable {text : String}

/-- A sequence that begins with a value at a place. -/
theorem Tracks.bind_at {r : Scanning (α × ℕ)} {x : Except φ (α × List Char)} {k : α × ℕ → Scanning δ}
    {g : α × List Char → Except φ γ} (h : Tracks toError (At text) r x)
    (hk : ∀ a i rest, x = .ok (a, rest) → Place text i rest → Tracks toError S (k (a, i)) (g (a, rest))) :
    Tracks toError S (r >>= k) (x >>= g) := by
  refine h.bind fun b y hy hat => ?_
  obtain ⟨b, i⟩ := b
  obtain ⟨a, rest⟩ := y
  obtain ⟨heq, hplace⟩ := hat
  obtain rfl : b = a := heq
  exact hk b i rest hy hplace

/-- A sequence that begins with characters at a place. -/
theorem Tracks.bind_behind {r : Scanning (String × ℕ)} {x : Except φ (List Char × List Char)}
    {k : String × ℕ → Scanning δ} {g : List Char × List Char → Except φ γ} (h : Tracks toError (Behind text "") r x)
    (hk : ∀ cs i rest, x = .ok (cs, rest) → Place text i rest →
      Tracks toError S (k (String.ofList cs, i)) (g (cs, rest))) :
    Tracks toError S (r >>= k) (x >>= g) := by
  refine h.bind fun b y hy hbehind => ?_
  obtain ⟨b, i⟩ := b
  obtain ⟨cs, rest⟩ := y
  obtain ⟨heq, hplace⟩ := hbehind
  obtain rfl : b = String.ofList cs := heq.trans String.empty_append
  exact hk cs i rest hy hplace

end SqlJson
