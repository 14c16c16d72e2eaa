import SqlJson.Decimal.Reader
import SqlJson.Proofs.Decimal.NormalForm
import SqlJson.Proofs.Text.Runs

/-!
# What the reader of decimals makes of a text

A text of a sign, digits, a point with digits, and an exponent is read as the decimal of these
parts (`ofChars?_parts`, `readExponent?_parts`).
-/

namespace SqlJson.Decimal

/-- A sign as it is written, and whether it says minus. -/
inductive Sign : List Char → Bool → Prop
  | absent : Sign [] false
  | plus : Sign ['+'] false
  | minus : Sign ['-'] true

/-- A point with digits after it, or nothing, and the digits. -/
inductive Point : List Char → List Char → Prop
  | absent : Point [] []
  | present {ds : List Char} : Point ('.' :: ds) ds

variable {sign whole point ds tail : List Char} {negative : Bool}

theorem splitSign_append (hs : Sign sign negative) (ht : Stops (fun c => c = '+' || c = '-') tail) :
    splitSign (sign ++ tail) = (negative, tail) := by
  cases hs with
  | plus => rfl
  | minus => rfl
  | absent =>
    cases tail with
    | nil => rfl
    | cons c tail =>
      have h := stops_cons.1 ht
      simp only [Bool.or_eq_false_iff, decide_eq_false_iff_not] at h
      rw [List.nil_append]
      unfold splitSign
      split
      · rename_i heq
        exact absurd (List.cons.inj heq).1 h.2
      · rename_i heq
        exact absurd (List.cons.inj heq).1 h.1
      · rfl

theorem splitFraction_append (hp : Point point ds) (hd : ∀ c ∈ ds, c.isDigit)
    (ht : Stops (fun c => c.isDigit || c = '.') tail) : splitFraction (point ++ tail) = (ds, tail) := by
  have hdigit : Stops Char.isDigit tail := ht.mono (by simp +contextual)
  cases hp with
  | present =>
    rw [List.cons_append, splitFraction, takeWhile_run hd hdigit, dropWhile_run hd hdigit]
  | absent =>
    rw [List.nil_append]
    unfold splitFraction
    split
    · have h := stops_cons.1 ht
      simp at h
    · rfl

/-- A digit is neither a sign nor a point. -/
theorem isDigit_ne {c : Char} (h : c.isDigit) : c ≠ '+' ∧ c ≠ '-' ∧ c ≠ '.' ∧ c ≠ 'e' ∧ c ≠ 'E' := by
  refine ⟨?_, ?_, ?_, ?_, ?_⟩ <;> (rintro rfl; revert h; decide)

theorem stops_sign_of_digits (hw : ∀ c ∈ whole, c.isDigit) (hp : Point point ds)
    (hne : whole ++ ds ≠ []) (tail : List Char) : Stops (fun c => c = '+' || c = '-') (whole ++ point ++ tail) := by
  cases whole with
  | cons c whole =>
    have h := isDigit_ne (hw c (by simp))
    simp [stops_cons, h.1, h.2.1]
  | nil =>
    cases hp with
    | present => simp [stops_cons]
    | absent => exact absurd rfl hne

theorem stops_digit_of_point (hp : Point point ds)
    (ht : Stops (fun c => c.isDigit || c = '.') tail) : Stops Char.isDigit (point ++ tail) := by
  cases hp with
  | present => exact stops_cons.2 (by decide)
  | absent => exact ht.mono (by simp +contextual)

/-- **The decimal of the parts of a text.** -/
theorem ofChars?_parts (hs : Sign sign negative) (hw : ∀ c ∈ whole, c.isDigit) (hp : Point point ds)
    (hd : ∀ c ∈ ds, c.isDigit) (hne : whole ++ ds ≠ [])
    (ht : Stops (fun c => c.isDigit || c = '.') tail) :
    ofChars? (sign ++ (whole ++ point ++ tail)) = (readExponent? tail).map fun e =>
      ofParts negative (Nat.ofDigitChars 10 (whole ++ ds) 0) (clampExponent (e - ds.length)) := by
  have hstop := stops_digit_of_point hp ht
  have hpart : ¬(whole = [] ∧ ds = []) := fun h => hne (by simp [h.1, h.2])
  unfold ofChars?
  rw [splitSign_append hs (stops_sign_of_digits hw hp hne tail)]
  simp only [List.append_assoc]
  rw [takeWhile_run hw hstop, dropWhile_run hw hstop, splitFraction_append hp hd ht]
  simp only [hpart, if_false]

/-- **The value of the parts of an exponent.** -/
theorem readExponent?_parts {e : Char} (he : e = 'e' ∨ e = 'E') (hs : Sign sign negative)
    (hne : ds ≠ []) (hd : ∀ c ∈ ds, c.isDigit) :
    readExponent? (e :: (sign ++ ds)) = some (if negative then
        -min maxExponent (Nat.ofDigitChars 10 ds 0) else min maxExponent (Nat.ofDigitChars 10 ds 0)) := by
  have hstop : Stops (fun c => c = '+' || c = '-') ds := by
    have h := stops_sign_of_digits hd .absent (by simpa using hne) []
    simpa using h
  have hall : ¬(ds = [] ∨ !ds.all Char.isDigit) := by
    have : ds.all Char.isDigit = true := List.all_eq_true.2 hd
    simp [hne, this]
  rw [readExponent?, if_pos he, splitSign_append hs hstop]
  simp only [hall, if_false]

theorem ofChars?_isNormal {text : List Char} {d : Decimal} (h : ofChars? text = some d) :
    d.IsNormal := by
  unfold ofChars? at h
  simp only at h
  split_ifs at h
  obtain ⟨e, -, rfl⟩ := Option.map_eq_some_iff.1 h
  exact ofParts_isNormal _ _ _

end SqlJson.Decimal
