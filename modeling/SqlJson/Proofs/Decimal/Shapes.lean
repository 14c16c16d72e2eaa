import SqlJson.Proofs.Decimal.Texts

/-!
# The shapes of decimal texts

A decimal is written with all its digits in their places, or with one digit before the point and an exponent. Either
text is a number of JSON that is read as the decimal again, and for the canonical text the place of the first digit
decides between the two.

* `Positional`, `Scientific`: the two shapes.
* `positional_signText`, `scientific_signText`: each way to write a decimal has its shape.
* `writtenAs_plain`: the plain text reads back.
* `texts_readBack`: both texts read back, and the shape of the canonical one.
-/

namespace SqlJson.Decimal

open Json.Grammar Json

variable {d : Decimal} {cs ds : List Char} {e : ℤ}

/-- The power of ten of the first digit. -/
def scientificExponent (d : Decimal) : ℤ := d.digits.length + d.exponent - 1

/-- **A positional text**: a number of JSON without an exponent. -/
inductive Positional : List Char → Prop
  | mk {sign whole fraction : List Char} (hs : sign = [] ∨ sign = ['-']) (hw : Whole whole)
      (hf : Fraction fraction) : Positional (sign ++ whole ++ fraction)

/-- **A scientific text and its exponent**: one digit that is no zero, more of them behind a point, and an exponent that
is written with its sign and at least two digits. -/
inductive Scientific : List Char → ℤ → Prop
  | mk {sign fraction exponent : List Char} {first plus : Char} {e : ℤ} (hs : sign = [] ∨ sign = ['-'])
      (hc : first.isDigit) (h0 : first ≠ '0') (hf : Fraction fraction) (hp : plus = if e < 0 then '-' else '+')
      (hx : Digits exponent) (hlen : 2 ≤ exponent.length) (he : Nat.ofDigitChars 10 exponent 0 = e.natAbs) :
      Scientific (sign ++ first :: fraction ++ 'e' :: plus :: exponent) e

/-! ## Positional texts -/

/-- No digit, point or sign is the mark of an exponent. -/
theorem not_mem_of_places (h : ∀ c ∈ cs, c.isDigit ∨ c = '-' ∨ c = '.') : 'e' ∉ cs ∧ 'E' ∉ cs :=
  ⟨fun he => absurd (h _ he) (by decide), fun he => absurd (h _ he) (by decide)⟩

theorem Positional.not_mem (h : Positional cs) : 'e' ∉ cs ∧ 'E' ∉ cs := by
  refine not_mem_of_places fun c hc => ?_
  obtain ⟨hs, hw, hf⟩ := h
  simp only [List.mem_append] at hc
  rcases hc with (hc | hc) | hc
  · rcases hs with rfl | rfl
    · exact absurd hc List.not_mem_nil
    · exact .inr (.inl (List.mem_singleton.1 hc))
  · exact .inl ((digits_of_whole hw).2 c hc)
  · cases hf with
    | absent => exact absurd hc List.not_mem_nil
    | present hds =>
      rcases List.mem_cons.1 hc with rfl | hc
      · exact .inr (.inr rfl)
      · exact .inl (hds.2 c hc)

/-- **A positional text is a number of JSON without the mark of an exponent.** -/
theorem positional_iff : Positional cs ↔ Literal cs ∧ 'e' ∉ cs ∧ 'E' ∉ cs := by
  constructor
  · intro h
    refine ⟨?_, h.not_mem⟩
    obtain ⟨hs, hw, hf⟩ := h
    simpa using Literal.mk hs hw hf .absent
  · rintro ⟨⟨hs, hw, hf, he⟩, hlower, hupper⟩
    cases he with
    | absent => simpa using Positional.mk hs hw hf
    | present hmark => rcases hmark with rfl | rfl <;> simp at hlower hupper

theorem mem_positional {c : Char} (h : c ∈ positional ds e) : c ∈ ds ∨ c = '0' ∨ c = '.' := by
  unfold positional at h
  dsimp only at h
  split_ifs at h
  · simp only [List.cons_append, List.mem_cons, List.mem_append, List.mem_replicate] at h
    tauto
  · simp only [List.mem_append, List.mem_replicate] at h
    tauto
  · simp only [List.mem_append, List.mem_cons] at h
    rcases h with h | rfl | h
    · exact .inl (List.mem_of_mem_take h)
    · exact .inr (.inr rfl)
    · exact .inl (List.mem_of_mem_drop h)

theorem positional_signText (hd : d.IsNormal) (h0 : d.coefficient ≠ 0) :
    Positional (d.signText ++ positional d.digits d.exponent) := by
  refine positional_iff.2 ⟨(writtenAs_positional hd h0).1, not_mem_of_places fun c hc => ?_⟩
  rcases List.mem_append.1 hc with hc | hc
  · unfold signText at hc
    split_ifs at hc
    · exact .inr (.inl (List.mem_singleton.1 hc))
    · exact absurd hc List.not_mem_nil
  · rcases mem_positional hc with hc | rfl | rfl
    · exact .inl (isDigit_of_mem_digits hc)
    · decide
    · decide

/-! ## Scientific texts -/

theorem Scientific.not_positional (h : Scientific cs e) : ¬ Positional cs := by
  obtain ⟨⟩ := h
  intro h
  exact h.not_mem.1 (by simp)

theorem scientific_signText (h0 : d.coefficient ≠ 0) (e : ℤ) : Scientific (d.signText ++ scientific d.digits e) e := by
  obtain ⟨plus, exponent, hexp, hplus, hexponent, hlen, hval⟩ := exponentText_digits e
  have hs : d.signText = [] ∨ d.signText = ['-'] := exists_signChars_iff.1 ⟨d.negative, rfl⟩
  obtain ⟨first, rest, hdigits, hfirst⟩ := head_toDigits_ne h0
  rw [← digits_of_ne_zero h0] at hdigits
  have hmem : ∀ c ∈ first :: rest, c.isDigit := fun c hc => isDigit_of_mem_digits (by rw [hdigits]; exact hc)
  have hdigit := hmem first List.mem_cons_self
  unfold scientific
  rw [hdigits, hexp]
  cases rest with
  | nil => simpa using Scientific.mk hs hdigit hfirst .absent hplus hexponent hlen hval
  | cons c rest =>
    have hrest : Digits (c :: rest) := ⟨by simp, fun x hx => hmem x (List.mem_cons_of_mem _ hx)⟩
    simpa using Scientific.mk hs hdigit hfirst (.present hrest) hplus hexponent hlen hval

/-! ## Both texts -/

/-- **The plain text reads back.** -/
theorem writtenAs_plain (hd : d.IsNormal) (hs : d.InScale) : WrittenAs d d.plainChars := by
  have hcanonical := writtenAs_canonical hd hs
  unfold plainChars
  split_ifs with hz
  · rwa [canonicalChars, if_pos hz] at hcanonical
  · exact hcanonical
  · exact writtenAs_positional hd (isZero_iff.not.1 hz)

/-- **The shape of a canonical text.** -/
theorem canonicalChars_shape (hd : d.IsNormal) (hs : d.InScale) :
    (d.isZero ∨ -5 ≤ d.scientificExponent ∧ d.scientificExponent < 15) ∧ Positional d.canonicalChars ∨
    ¬ (d.isZero ∨ -5 ≤ d.scientificExponent ∧ d.scientificExponent < 15) ∧
      Scientific d.canonicalChars d.scientificExponent := by
  have hclamp : d.integerDigits - 1 = d.scientificExponent := by
    unfold integerDigits
    rw [clampExponent_of_mem (by have := hs.1; unfold minExponent maxExponent at *; omega) hs.2]
    rfl
  unfold canonicalChars
  by_cases hz : d.isZero
  · rw [if_pos hz]
    exact .inl ⟨.inl hz, .mk (.inl rfl) .zero .absent⟩
  rw [if_neg hz]
  dsimp only
  rw [hclamp]
  split_ifs with hplaces
  · exact .inl ⟨.inr hplaces, positional_signText hd (isZero_iff.not.1 hz)⟩
  · exact .inr ⟨not_or.2 ⟨hz, hplaces⟩, scientific_signText (isZero_iff.not.1 hz) _⟩

/-- Digits and exponents of at most `2 ^ 61` are far from the ends of the range. -/
theorem inScale_of_le (hlen : d.digits.length ≤ 2 ^ 61) (hexp : |d.exponent| ≤ 2 ^ 61) : d.InScale := by
  rw [abs_le] at hexp
  unfold InScale maxExponent
  omega

/-- **The texts of a decimal.** Both are numbers of JSON, and either is read as the decimal again. The canonical one is
positional for zero and where the first digit stands for `10 ^ -5` or more and less than `10 ^ 15`. Everywhere else it
is scientific. -/
theorem texts_readBack (hd : d.IsNormal) (hlen : d.digits.length ≤ 2 ^ 61) (hexp : |d.exponent| ≤ 2 ^ 61) :
    (Literal d.canonical.toList ∧ ofString? d.canonical = some d) ∧
    (Literal d.plain.toList ∧ ofString? d.plain = some d) ∧
    (Positional d.canonical.toList ↔ d.isZero ∨ -5 ≤ d.scientificExponent ∧ d.scientificExponent < 15) ∧
    (¬ Positional d.canonical.toList → Scientific d.canonical.toList d.scientificExponent) := by
  have hs := inScale_of_le hlen hexp
  simp only [canonical, plain, ofString?, String.toList_ofList]
  refine ⟨writtenAs_canonical hd hs, writtenAs_plain hd hs, ?_⟩
  obtain ⟨hplaces, hshape⟩ | ⟨hplaces, hshape⟩ := canonicalChars_shape hd hs
  · exact ⟨iff_of_true hshape hplaces, fun h => absurd hshape h⟩
  · exact ⟨iff_of_false hshape.not_positional hplaces, fun _ => hshape⟩

/-- On the border between the two shapes. -/
theorem texts_readBack_border :
    ofString? (canonical ⟨false, 125, 12⟩) = some ⟨false, 125, 12⟩ ∧
    Positional (canonical ⟨false, 125, 12⟩).toList ∧
    ofString? (plain ⟨true, 125, 13⟩) = some ⟨true, 125, 13⟩ ∧
    Scientific (canonical ⟨true, 125, 13⟩).toList 15 := by
  obtain ⟨⟨-, hbelow⟩, -, hpositional, -⟩ := texts_readBack (d := ⟨false, 125, 12⟩) (by decide) (by decide) (by decide)
  obtain ⟨-, ⟨-, habove⟩, hborder, hscientific⟩ :=
    texts_readBack (d := ⟨true, 125, 13⟩) (by decide) (by decide) (by decide)
  exact ⟨hbelow, hpositional.2 (by decide), habove, hscientific (hborder.not.2 (by decide))⟩

end SqlJson.Decimal
