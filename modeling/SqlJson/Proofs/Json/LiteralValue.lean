import SqlJson.Proofs.Json.NumberText

/-!
# The value of a number as it is written

* `Grammar.NumberParts`: the parts of a number and their exact value.
* `exists_writes`, `literal_of_writes`: every number has parts, and nothing else has.
-/

namespace SqlJson.Json

namespace Grammar

/-- **The parts of a number**: its sign, the digits before the point and behind it, and the exponent. -/
structure NumberParts where
  negative : Bool
  whole : List Char
  fraction : List Char
  exponent : ℤ

/-- **The exact value of a number** with these parts. -/
def NumberParts.value (p : NumberParts) : ℚ :=
  let magnitude : ℚ := Nat.ofDigitChars 10 (p.whole ++ p.fraction) 0 * 10 ^ (p.exponent - p.fraction.length)
  if p.negative then -magnitude else magnitude

/-- An exponent as it is written, which may be left out. -/
inductive WritesExponent : List Char → ℤ → Prop
  | absent : WritesExponent [] 0
  | present {e : Char} {sign ds : List Char} {negative : Bool} (he : e = 'e' ∨ e = 'E')
      (hs : Decimal.Sign sign negative) (h : Digits ds) : WritesExponent (e :: sign ++ ds)
        (if negative then -(Nat.ofDigitChars 10 ds 0 : ℤ) else Nat.ofDigitChars 10 ds 0)

/-- **A number as it is written, and its parts.** -/
inductive NumberParts.Writes : NumberParts → List Char → Prop
  | mk {negative : Bool} {whole fraction ds exponent : List Char} {e : ℤ} (hw : Whole whole) (hf : Fraction fraction)
      (hds : Decimal.Point fraction ds) (he : WritesExponent exponent e) :
      Writes ⟨negative, whole, ds, e⟩ (signChars negative ++ (whole ++ fraction ++ exponent))

end Grammar

open Grammar

variable {cs exponent fraction ds : List Char} {e : ℤ} {p : NumberParts}

theorem exists_writesExponent (h : Exponent exponent) : ∃ e, WritesExponent exponent e := by
  cases h with
  | absent => exact ⟨0, .absent⟩
  | present he hs hd =>
    rcases hs with rfl | rfl | rfl
    · exact ⟨_, .present he .absent hd⟩
    · exact ⟨_, .present he .plus hd⟩
    · exact ⟨_, .present he .minus hd⟩

theorem exponent_of_writes (h : WritesExponent exponent e) : Exponent exponent := by
  cases h with
  | absent => exact .absent
  | present he hs hd =>
    refine .present he ?_ hd
    cases hs with
    | absent => exact .inl rfl
    | plus => exact .inr (.inl rfl)
    | minus => exact .inr (.inr rfl)

/-- **Every number has parts.** -/
theorem exists_writes (h : Literal cs) : ∃ p : NumberParts, p.Writes cs := by
  cases h with
  | @mk sign whole fraction exponent hs hw hf he =>
    obtain ⟨negative, rfl⟩ := exists_signChars_iff.2 hs
    obtain ⟨ds, hds, -⟩ := point_of_fraction hf
    obtain ⟨e, hwrites⟩ := exists_writesExponent he
    refine ⟨⟨negative, whole, ds, e⟩, ?_⟩
    simpa only [List.append_assoc] using NumberParts.Writes.mk hw hf hds hwrites

theorem literal_of_writes (h : p.Writes cs) : Literal cs := by
  cases h with
  | @mk negative whole fraction ds exponent e hw hf hds he =>
    have hsign := exists_signChars_iff.1 ⟨negative, rfl⟩
    have hliteral := Literal.mk hsign hw hf (exponent_of_writes he)
    simpa only [List.append_assoc] using hliteral

end SqlJson.Json
