import SqlJson.Json.Reader
import SqlJson.Proofs.Decimal.Reading
import SqlJson.Proofs.Json.StringText
import SqlJson.Proofs.Number.Integers
import SqlJson.Proofs.Text.Integer

/-!
# Numbers of JSON texts

The reader of numbers takes off the longest number at the front of a text, and stores it as the
classification of its literal says. That integers of 64 bits have a way of their own makes no
difference (`classify_eq`).

* `readNumber_sound`: what is read is a number of the grammar.
* `readNumber_literal`: a number of the grammar is read, if what follows cannot continue it.
* `exists_ofLiteral`: without a mode every number of the grammar can be stored.
-/

namespace SqlJson.Json

open Grammar

variable {mode : Option WideMode} {cs ds rest whole fraction exponent sign : List Char}
  {negative : Bool}

/-! ## The parts of a number -/

/-- The characters that could continue a number. -/
def continuesNumber (c : Char) : Bool := c.isDigit || c = '.' || c = 'e' || c = 'E'

theorem splitDigits_eq (cs : List Char) :
    splitDigits cs = (cs.takeWhile Char.isDigit, cs.dropWhile Char.isDigit) :=
  List.span_eq_takeWhile_dropWhile _ _

theorem splitDigits_append (hd : ∀ c ∈ ds, c.isDigit) (hr : Stops Char.isDigit rest) :
    splitDigits (ds ++ rest) = (ds, rest) := by
  rw [splitDigits_eq, takeWhile_run hd hr, dropWhile_run hd hr]

theorem splitDigits_sound (h : splitDigits cs = (ds, rest)) :
    (∀ c ∈ ds, c.isDigit) ∧ cs = ds ++ rest ∧ Stops Char.isDigit rest := by
  rw [splitDigits_eq, Prod.mk.injEq] at h
  obtain ⟨rfl, rfl⟩ := h
  exact ⟨List.all_eq_true.1 List.all_takeWhile, List.takeWhile_append_dropWhile.symm,
    stops_dropWhile cs⟩

theorem readWhole_sound (h : readWhole cs = .ok (whole, rest)) :
    Whole whole ∧ cs = whole ++ rest := by
  unfold readWhole at h
  split at h
  · split_ifs at h
    · cases h
      exact ⟨.zero, rfl⟩
    · exact absurd h fail_ne_ok
  · rename_i hne
    obtain ⟨digits, rest', hsplit⟩ : ∃ ds r, splitDigits cs = (ds, r) := ⟨_, _, rfl⟩
    rw [hsplit] at h
    obtain ⟨hd, rfl, -⟩ := splitDigits_sound hsplit
    simp only at h
    split_ifs at h with hnil
    · exact absurd h fail_ne_ok
    · cases h
      obtain ⟨d, ds, rfl⟩ := List.exists_cons_of_ne_nil hnil
      exact ⟨.digits ⟨hnil, hd⟩ (fun h0 => hne _ (by rw [h0]; rfl)), rfl⟩

theorem readWhole_complete (hw : Whole whole) (hr : Stops Char.isDigit rest) :
    readWhole (whole ++ rest) = .ok (whole, rest) := by
  cases hw with
  | zero =>
    have h : splitDigits ([] ++ rest) = ([], rest) := splitDigits_append (by simp) hr
    rw [List.nil_append] at h
    simp [readWhole, h]
  | @digits d ds hd h0 =>
    have h := splitDigits_append hd.2 hr
    unfold readWhole
    split
    · rename_i heq
      exact absurd (List.cons.inj heq).1 h0
    · rw [h]
      simp

theorem readFraction_sound (h : readFraction cs = .ok (fraction, rest)) :
    Fraction fraction ∧ cs = fraction ++ rest := by
  unfold readFraction at h
  split at h
  · rename_i tail
    obtain ⟨digits, rest', hsplit⟩ : ∃ ds r, splitDigits tail = (ds, r) := ⟨_, _, rfl⟩
    rw [hsplit] at h
    obtain ⟨hd, rfl, -⟩ := splitDigits_sound hsplit
    simp only at h
    split_ifs at h with hnil
    · exact absurd h fail_ne_ok
    · cases h
      exact ⟨.present ⟨hnil, hd⟩, rfl⟩
  · cases h
    exact ⟨.absent, rfl⟩

theorem readFraction_complete (hf : Fraction fraction)
    (hr : Stops (fun c => c.isDigit || c = '.') rest) :
    readFraction (fraction ++ rest) = .ok (fraction, rest) := by
  cases hf with
  | absent =>
    unfold readFraction
    split
    · rename_i heq
      rw [List.nil_append] at heq
      rw [heq] at hr
      simp [stops_cons] at hr
    · rfl
  | present hd =>
    have h := splitDigits_append hd.2 (hr.mono (by simp +contextual))
    rw [List.cons_append, readFraction, h]
    simp [hd.1]

theorem readExponent_sound (h : readExponent cs = .ok (exponent, rest)) :
    Exponent exponent ∧ cs = exponent ++ rest := by
  unfold readExponent at h
  split at h
  · rename_i e tail
    split_ifs at h with he
    · obtain ⟨sign, tail', hsign⟩ : ∃ s r, splitSign tail = (s, r) := ⟨_, _, rfl⟩
      simp only [hsign] at h
      have hs : (sign = [] ∨ sign = ['+'] ∨ sign = ['-']) ∧ tail = sign ++ tail' := by
        unfold splitSign at hsign
        split at hsign <;> cases hsign <;> simp
      obtain ⟨hs, rfl⟩ := hs
      obtain ⟨digits, rest', hsplit⟩ : ∃ ds r, splitDigits tail' = (ds, r) := ⟨_, _, rfl⟩
      rw [hsplit] at h
      obtain ⟨hd, rfl, -⟩ := splitDigits_sound hsplit
      simp only at h
      split_ifs at h with hnil
      · exact absurd h fail_ne_ok
      · cases h
        exact ⟨.present he hs ⟨hnil, hd⟩, by simp⟩
    · cases h
      exact ⟨.absent, rfl⟩
  · cases h
    exact ⟨.absent, rfl⟩

theorem readExponent_complete (he : Exponent exponent) (hr : Stops continuesNumber rest) :
    readExponent (exponent ++ rest) = .ok (exponent, rest) := by
  cases he with
  | absent =>
    cases rest with
    | nil => rfl
    | cons c rest =>
      have h := stops_cons.1 hr
      simp only [continuesNumber, Bool.or_eq_false_iff, decide_eq_false_iff_not] at h
      have hne : ¬(c = 'e' ∨ c = 'E') := by tauto
      rw [List.nil_append, readExponent, if_neg hne]
  | @present e sign ds he hs hd =>
    have hdigit : Stops Char.isDigit rest := hr.mono (by simp +contextual [continuesNumber])
    have hsplit : splitSign (sign ++ (ds ++ rest)) = (sign, ds ++ rest) := by
      rcases hs with rfl | rfl | rfl
      · obtain ⟨d, ds, rfl⟩ := List.exists_cons_of_ne_nil hd.1
        have h := Decimal.isDigit_ne (hd.2 d (by simp))
        rw [List.nil_append, List.cons_append]
        unfold splitSign
        split
        · rename_i heq
          exact absurd (List.cons.inj heq).1 h.1
        · rename_i heq
          exact absurd (List.cons.inj heq).1 h.2.1
        · rfl
      · rfl
      · rfl
    rw [List.append_assoc, List.cons_append, readExponent, if_pos he, hsplit]
    simp only [splitDigits_append hd.2 hdigit, hd.1, if_false]

/-! ## The stored form -/

/-- The sign of a number as it is written. -/
def signChars (negative : Bool) : List Char := if negative then ['-'] else []

theorem exists_signChars_iff : (∃ b, sign = signChars b) ↔ sign = [] ∨ sign = ['-'] := by
  constructor
  · rintro ⟨b, rfl⟩
    cases b
    · exact .inl rfl
    · exact .inr rfl
  · rintro (rfl | rfl)
    · exact ⟨false, rfl⟩
    · exact ⟨true, rfl⟩

theorem sign_signChars (negative : Bool) : Decimal.Sign (signChars negative) negative := by
  cases negative
  · exact .absent
  · exact .minus

theorem digits_of_whole (hw : Whole whole) : Digits whole := by
  cases hw with
  | zero => exact ⟨by simp, by simp⟩
  | digits h _ => exact h

theorem digits_of_point (hf : Fraction fraction) (hp : Decimal.Point fraction ds) : ∀ c ∈ ds, c.isDigit := by
  cases hp with
  | absent => exact List.forall_mem_nil _
  | present =>
    cases hf with
    | present h => exact h.2

/-- The digits behind the point. -/
theorem point_of_fraction (hf : Fraction fraction) :
    ∃ ds, Decimal.Point fraction ds ∧ ∀ c ∈ ds, c.isDigit := by
  cases hf with
  | absent => exact ⟨[], .absent, by simp⟩
  | @present ds h => exact ⟨ds, .present, h.2⟩

theorem stops_exponent (he : Exponent exponent) :
    Stops (fun c => c.isDigit || c = '.') exponent := by
  cases he with
  | absent => exact stops_nil
  | present he _ _ => rcases he with rfl | rfl <;> exact stops_cons.2 (by decide)

theorem readExponent?_exponent (he : Exponent exponent) : ∃ e, Decimal.readExponent? exponent = some e := by
  cases he with
  | absent => exact ⟨0, rfl⟩
  | @present e sign ds he hs hd =>
    obtain ⟨negative, hsign⟩ : ∃ b, Decimal.Sign sign b := by
      rcases hs with rfl | rfl | rfl
      · exact ⟨_, .absent⟩
      · exact ⟨_, .plus⟩
      · exact ⟨_, .minus⟩
    exact ⟨_, Decimal.readExponent?_parts he hsign hd.1 hd.2⟩

/-- **Every number of the grammar is a decimal.** -/
theorem exists_ofChars? (negative : Bool) (hw : Whole whole) (hf : Fraction fraction) (he : Exponent exponent) :
    ∃ d, Decimal.ofChars? (signChars negative ++ (whole ++ fraction ++ exponent)) = some d := by
  obtain ⟨ds, hp, hd⟩ := point_of_fraction hf
  obtain ⟨e, hexp⟩ := readExponent?_exponent he
  have hwd := digits_of_whole hw
  have h := Decimal.ofChars?_parts (sign_signChars negative) hwd.2 hp hd (by simp [hwd.1])
    (stops_exponent he)
  rw [hexp] at h
  exact ⟨_, h⟩

/-- The decimal of an integer is that of its sign and digits. -/
theorem ofChars?_integer (hw : Whole whole) :
    Decimal.ofChars? (signChars negative ++ whole) =
      some (Decimal.ofParts negative (Nat.ofDigitChars 10 whole 0) 0) := by
  have hwd := digits_of_whole hw
  have h := Decimal.ofChars?_parts (sign_signChars negative) hwd.2 .absent (by simp) (by simp [hwd.1])
    stops_nil
  simp only [List.append_nil, Decimal.readExponent?, Option.map_some, List.length_nil,
    Nat.cast_zero, sub_zero] at h
  rw [h, clampExponent_of_mem (by decide) (by decide)]

/-- The integer that a sign and digits denote. -/
theorem integral_signChars_iff (hw : Whole whole) {z : ℤ} : Text.Integral (signChars negative ++ whole) z ↔
    (if negative then -(Nat.ofDigitChars 10 whole 0 : ℤ) else Nat.ofDigitChars 10 whole 0) = z := by
  have hwd := digits_of_whole hw
  cases negative with
  | true => exact Text.integral_minus_iff.trans (and_iff_right hwd)
  | false =>
    obtain ⟨c, ds, rfl⟩ := List.exists_cons_of_ne_nil hwd.1
    have hne := Decimal.isDigit_ne (hwd.2 c List.mem_cons_self)
    exact (Text.integral_iff_of_ne hne.1 hne.2.1).trans (and_iff_right hwd)

theorem head_signChars (hw : Whole whole) : (signChars negative ++ whole).head? = some '-' ↔ negative = true := by
  have hwd := digits_of_whole hw
  cases negative with
  | true => exact iff_of_true rfl rfl
  | false =>
    obtain ⟨c, ds, rfl⟩ := List.exists_cons_of_ne_nil hwd.1
    have hne := Decimal.isDigit_ne (hwd.2 c List.mem_cons_self)
    exact iff_of_false (fun h => hne.2.1 (Option.some.inj h)) Bool.false_ne_true

/-- What is read as a signed integer, and what as an unsigned one: in the latter a minus sign is not read. -/
theorem readInteger_signChars_iff (hw : Whole whole) {value z : ℤ}
    (hvalue : (if negative then -(Nat.ofDigitChars 10 whole 0 : ℤ) else Nat.ofDigitChars 10 whole 0) = value) :
    (Text.readInteger Int64.minValue.toInt Int64.maxValue.toInt (signChars negative ++ whole) = .ok z ↔
      value = z ∧ Int64.minValue.toInt ≤ z ∧ z ≤ Int64.maxValue.toInt) ∧
    (Text.readInteger 0 (UInt64.size - 1) (signChars negative ++ whole) = .ok z ↔
      value = z ∧ 0 ≤ z ∧ z ≤ UInt64.size - 1 ∧ negative = false) := by
  rw [Text.readInteger_eq_ok_iff (by decide) (by decide), Text.readInteger_eq_ok_iff_of_nonpos le_rfl (by decide),
    integral_signChars_iff hw, head_signChars hw, hvalue]
  simp

/-- **A literal without a fraction and an exponent is tried as an integer of 64 bits**, and found to be one if its value
is. -/
theorem integer?_eq (hw : Whole whole) : integer? (signChars negative ++ whole) =
    Number.ofInt? (if negative then -(Nat.ofDigitChars 10 whole 0 : ℤ) else Nat.ofDigitChars 10 whole 0) := by
  have hmin : Int64.minValue.toInt = -2 ^ 63 := by decide
  have hmax : Int64.maxValue.toInt = 2 ^ 63 - 1 := by decide
  obtain ⟨value, hvalue⟩ : ∃ value : ℤ,
      (if negative then -(Nat.ofDigitChars 10 whole 0 : ℤ) else Nat.ofDigitChars 10 whole 0) = value := ⟨_, rfl⟩
  have hread (z : ℤ) := readInteger_signChars_iff (z := z) hw hvalue
  rw [hvalue]
  unfold integer? Number.ofInt?
  by_cases hsigned : Int64.minValue.toInt ≤ value ∧ value ≤ Int64.maxValue.toInt
  · rw [(hread value).1.2 ⟨rfl, hsigned⟩, if_pos hsigned]
  rw [if_neg hsigned]
  split
  · rename_i z hz
    obtain ⟨rfl, hrange⟩ := (hread z).1.1 hz
    exact absurd hrange hsigned
  by_cases hunsigned : 0 ≤ value ∧ value < UInt64.size
  -- what is not negative and not signed has no minus sign
  · have hsign : negative = false := by
      by_contra hminus
      rw [Bool.not_eq_false] at hminus
      rw [if_pos hminus] at hvalue
      omega
    rw [(hread value).2.2 ⟨rfl, hunsigned.1, by omega, hsign⟩, if_pos hunsigned]
  rw [if_neg hunsigned]
  split
  · rename_i z hz
    obtain ⟨rfl, hlow, hhigh, -⟩ := (hread z).2.1 hz
    exact absurd ⟨hlow, by omega⟩ hunsigned
  · rfl

/-- **An integer of 64 bits is stored without regard to the mode, and so it is by its literal.** -/
theorem classify_eq (hw : Whole whole) :
    classify mode negative whole fraction exponent =
      Number.ofLiteral (String.ofList (signChars negative ++ (whole ++ fraction ++ exponent))) mode := by
  have hlit : (if negative then ['-'] else []) ++ whole ++ fraction ++ exponent =
      signChars negative ++ (whole ++ fraction ++ exponent) := by
    simp only [signChars, List.append_assoc]
  unfold classify
  simp only [hlit]
  -- only a literal without a fraction and an exponent is tried as an integer first
  split_ifs with hint
  · obtain ⟨rfl, rfl⟩ := hint
    rw [List.append_nil, List.append_nil, integer?_eq hw]
    split
    · rename_i n hn
      have hlt := Number.lt_of_ofInt? hn
      have hz : (Decimal.ofParts negative (Nat.ofDigitChars 10 whole 0) 0).toInt? =
          some (if negative then -(Nat.ofDigitChars 10 whole 0 : ℤ) else Nat.ofDigitChars 10 whole 0) := by
        apply Decimal.toInt?_ofParts
        split_ifs at hlt <;> simpa using hlt
      rw [Number.ofLiteral, Decimal.ofString?, String.toList_ofList, ofChars?_integer hw]
      simp only [Number.ofDecimal, hz, Option.bind_some, hn]
    · rfl
  · rfl

/-- **Without a mode every number of the grammar can be stored.** -/
theorem exists_ofLiteral (h : Literal cs) : ∃ n, Number.ofLiteral (String.ofList cs) none = .ok n := by
  cases h with
  | @mk sign whole fraction exponent hs hw hf he =>
    obtain ⟨negative, rfl⟩ := exists_signChars_iff.2 hs
    obtain ⟨d, hd⟩ := exists_ofChars? negative hw hf he
    rw [Number.ofLiteral, Decimal.ofString?, String.toList_ofList]
    simp only [List.append_assoc] at hd ⊢
    simp only [hd, Number.ofDecimal]
    split
    · exact ⟨_, rfl⟩
    · split
      · exact ⟨_, rfl⟩
      · exact ⟨_, rfl⟩

/-! ## Whole numbers -/

/-- What stands behind a minus sign, and whether there is one. -/
def splitMinus (cs : List Char) : Bool × List Char :=
  match cs with
  | '-' :: rest => (true, rest)
  | rest => (false, rest)

theorem splitMinus_sound (h : splitMinus cs = (negative, rest)) : cs = signChars negative ++ rest := by
  unfold splitMinus at h
  split at h <;> cases h <;> rfl

theorem splitMinus_append (hw : Whole whole) (rest : List Char) :
    splitMinus (signChars negative ++ (whole ++ rest)) = (negative, whole ++ rest) := by
  cases negative with
  | true => rfl
  | false =>
    have hwd := digits_of_whole hw
    obtain ⟨d, ds, rfl⟩ := List.exists_cons_of_ne_nil hwd.1
    have hne := Decimal.isDigit_ne (hwd.2 d (by simp))
    simp only [signChars, Bool.false_eq_true, if_false, List.nil_append, List.cons_append]
    unfold splitMinus
    split
    · rename_i heq
      exact absurd (List.cons.inj heq).1 hne.2.1
    · rfl

theorem readNumber_eq (cs : List Char) : readNumber mode cs = (do
    let (whole, rest) ← readWhole (splitMinus cs).2
    let (fraction, rest) ← readFraction rest
    let (exponent, rest) ← readExponent rest
    match classify mode (splitMinus cs).1 whole fraction exponent with
    | .ok value => return (number value, rest)
    | .error error => .error (.number error)) := by
  rfl

/-- **What is read as a number is a number**, stored as its literal says. -/
theorem readNumber_sound {v : Json} (h : readNumber mode cs = .ok (v, rest)) :
    ∃ w n, cs = w ++ rest ∧ Literal w ∧ Number.ofLiteral (String.ofList w) mode = .ok n ∧
      v = .number n := by
  rw [readNumber_eq] at h
  obtain ⟨negative, tail, hsplit⟩ : ∃ b r, splitMinus cs = (b, r) := ⟨_, _, rfl⟩
  rw [hsplit] at h
  obtain rfl := splitMinus_sound hsplit
  obtain ⟨⟨whole, r1⟩, h1, h⟩ := Except.bind_eq_ok_iff.1 h
  obtain ⟨⟨fraction, r2⟩, h2, h⟩ := Except.bind_eq_ok_iff.1 h
  obtain ⟨⟨exponent, r3⟩, h3, h⟩ := Except.bind_eq_ok_iff.1 h
  obtain ⟨hw, rfl⟩ := readWhole_sound h1
  obtain ⟨hf, rfl⟩ := readFraction_sound h2
  obtain ⟨he, rfl⟩ := readExponent_sound h3
  simp only [classify_eq hw] at h
  split at h
  · rename_i n hn
    cases h
    refine ⟨signChars negative ++ (whole ++ fraction ++ exponent), n, by simp, ?_, hn, rfl⟩
    have hs := exists_signChars_iff.1 ⟨negative, rfl⟩
    simpa only [List.append_assoc] using Literal.mk hs hw hf he
  · cases h

theorem stops_fraction (he : Exponent exponent) (hr : Stops continuesNumber rest) :
    Stops (fun c => c.isDigit || c = '.') (exponent ++ rest) := by
  cases he with
  | absent => exact hr.mono (by simp +contextual [continuesNumber])
  | present he _ _ => rcases he with rfl | rfl <;> exact stops_cons.2 (by decide)

theorem stops_whole (hf : Fraction fraction) (hr : Stops (fun c => c.isDigit || c = '.') rest) :
    Stops Char.isDigit (fraction ++ rest) := by
  cases hf with
  | absent => exact hr.mono (by simp +contextual)
  | present _ => exact stops_cons.2 (by decide)

/-- **A number is read to its end**, if what follows does not continue it, and fails as its literal does. -/
theorem readNumber_literal (mode : Option WideMode) (h : Literal cs) (hr : Stops continuesNumber rest) :
    readNumber mode (cs ++ rest) =
      ((Number.ofLiteral (String.ofList cs) mode).map fun n => (.number n, rest)).mapError .number := by
  cases h with
  | @mk sign whole fraction exponent hs hw hf he =>
    obtain ⟨negative, rfl⟩ := exists_signChars_iff.2 hs
    -- each part stops where the next one begins, or where the number ends
    have hr2 := stops_fraction he hr
    have hr1 := stops_whole hf hr2
    simp only [List.append_assoc]
    rw [readNumber_eq, splitMinus_append hw]
    simp only [readWhole_complete hw hr1, readFraction_complete hf hr2, readExponent_complete he hr,
      classify_eq hw, List.append_assoc, bind, Except.bind]
    cases Number.ofLiteral (String.ofList (signChars negative ++ (whole ++ (fraction ++ exponent)))) mode <;> rfl

theorem readNumber_complete {n : Number} (h : Literal cs)
    (hn : Number.ofLiteral (String.ofList cs) mode = .ok n) (hr : Stops continuesNumber rest) :
    readNumber mode (cs ++ rest) = .ok (.number n, rest) := by
  rw [readNumber_literal mode h hr, hn]
  rfl

/-- A number begins with a digit or a minus sign. -/
theorem literal_head (h : Literal cs) : ∃ c tail, cs = c :: tail ∧ (c = '-' ∨ c.isDigit) := by
  cases h with
  | @mk sign whole fraction exponent hs hw hf he =>
    rcases hs with rfl | rfl
    · have hwd := digits_of_whole hw
      obtain ⟨d, ds, rfl⟩ := List.exists_cons_of_ne_nil hwd.1
      exact ⟨d, _, rfl, .inr (hwd.2 d (by simp))⟩
    · exact ⟨'-', _, rfl, .inl rfl⟩

end SqlJson.Json
