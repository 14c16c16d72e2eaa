import Mathlib.Data.List.DropRight
import SqlJson.Proofs.Decimal.Texts
import SqlJson.Proofs.Decimal.Value
import SqlJson.Proofs.Json.LiteralValue

/-!
# The grammar of decimal texts

A text is a decimal if it is a sign, digits with a point before, among or behind them, and an exponent, where the
sign, the point and the exponent may be left out. It is read as the normal form of its value, so that two texts are
read alike if they denote the same number.

* `Spelling`: the texts of the grammar and their parts.
* `isSome_ofChars?_iff`: these texts are read, and no others.
* `isNormal_iff_digits`: normal form, told by the digits.
* `Fits`, `value_of_spelling`: a text is read as a decimal of its exact value, if no exponent leaves its
  range.
* `ofString?_grammar`: all of it.
-/

namespace SqlJson

namespace Decimal

open Json Json.Grammar

variable {cs ds sign whole fraction exponent : List Char} {negative : Bool} {d : Decimal} {e : ℤ} {n : ℕ}
  {p : NumberParts}

/-- **The texts of the grammar and their parts**: a sign, digits before the point or behind it, and an exponent. -/
inductive Spelling : List Char → NumberParts → Prop
  | mk {sign whole point fraction exponent : List Char} {negative : Bool} {e : ℤ} (hs : Sign sign negative)
      (hw : ∀ c ∈ whole, c.isDigit) (hp : Point point fraction) (hf : ∀ c ∈ fraction, c.isDigit)
      (hne : whole ≠ [] ∨ fraction ≠ []) (he : WritesExponent exponent e) :
      Spelling (sign ++ (whole ++ point ++ exponent)) ⟨negative, whole, fraction, e⟩

/-! ## What is read -/

/-- The exponent that is read sticks to the ends of its range. -/
theorem readExponent?_of_writes (h : WritesExponent exponent e) :
    readExponent? exponent = some (max (-maxExponent) (min maxExponent e)) := by
  have hmax : 0 ≤ maxExponent := by decide
  cases h with
  | absent => rfl
  | @present c sign ds negative hc hs hd =>
    rw [List.cons_append, readExponent?_parts hc hs hd.1 hd.2]
    cases negative
    · simp only [Bool.false_eq_true, if_false]
      congr 1
      omega
    · simp only [if_true]
      congr 1
      omega

/-- **A text of the grammar is read** as the normal form of its parts. -/
theorem ofChars?_of_spelling (h : Spelling cs p) : ofChars? cs =
    some (ofParts p.negative (Nat.ofDigitChars 10 (p.whole ++ p.fraction) 0)
      (clampExponent (max (-maxExponent) (min maxExponent p.exponent) - p.fraction.length))) := by
  cases h with
  | @mk sign whole point fraction exponent negative e hs hw hp hf hne he =>
    have hdigits : whole ++ fraction ≠ [] := by
      rw [ne_eq, List.append_eq_nil_iff, not_and_or]
      exact hne
    rw [ofChars?_parts hs hw hp hf hdigits (stops_exponent (exponent_of_writes he)), readExponent?_of_writes he,
      Option.map_some]

theorem exists_sign (cs : List Char) : ∃ sign, Sign sign (splitSign cs).1 ∧ cs = sign ++ (splitSign cs).2 := by
  unfold splitSign
  split
  · exact ⟨_, .minus, rfl⟩
  · exact ⟨_, .plus, rfl⟩
  · exact ⟨_, .absent, rfl⟩

theorem exists_point (cs : List Char) : ∃ point, Point point (splitFraction cs).1 ∧
    (∀ c ∈ (splitFraction cs).1, c.isDigit) ∧ cs = point ++ (splitFraction cs).2 := by
  unfold splitFraction
  split
  · rename_i rest
    refine ⟨_, .present, List.all_eq_true.1 List.all_takeWhile, ?_⟩
    rw [List.cons_append, List.takeWhile_append_dropWhile]
  · exact ⟨_, .absent, List.forall_mem_nil _, rfl⟩

theorem exists_exponent (h : readExponent? cs = some e) : ∃ e', WritesExponent cs e' := by
  cases cs with
  | nil => exact ⟨0, .absent⟩
  | cons c rest =>
    obtain ⟨sign, hsign, hrest⟩ := exists_sign rest
    unfold readExponent? at h
    rw [Option.ite_none_right_eq_some] at h
    obtain ⟨hc, h⟩ := h
    dsimp only at h
    rw [Option.ite_none_left_eq_some] at h
    obtain ⟨hdigits, -⟩ := h
    rw [not_or, Bool.not_eq_true', Bool.not_eq_false, List.all_eq_true] at hdigits
    rw [hrest]
    exact ⟨_, .present hc hsign hdigits⟩

/-- **What is read is of the grammar.** -/
theorem exists_spelling (h : ofChars? cs = some d) : ∃ p, Spelling cs p := by
  unfold ofChars? at h
  dsimp only at h
  obtain ⟨sign, hs, hsign⟩ := exists_sign cs
  obtain ⟨point, hp, hf, hpoint⟩ := exists_point ((splitSign cs).2.dropWhile Char.isDigit)
  have hw : ∀ c ∈ (splitSign cs).2.takeWhile Char.isDigit, c.isDigit := List.all_eq_true.1 List.all_takeWhile
  rw [Option.ite_none_left_eq_some] at h
  obtain ⟨hne, h⟩ := h
  obtain ⟨e, hread, -⟩ := Option.map_eq_some_iff.1 h
  obtain ⟨e', he⟩ := exists_exponent hread
  have hspelling := Spelling.mk hs hw hp hf (not_and_or.1 hne) he
  rw [List.append_assoc, ← hpoint, List.takeWhile_append_dropWhile, ← hsign] at hspelling
  exact ⟨_, hspelling⟩

/-- **The texts of the grammar are read**, and no others. -/
theorem isSome_ofChars?_iff : (ofChars? cs).isSome ↔ ∃ p, Spelling cs p := by
  constructor
  · intro h
    obtain ⟨d, hd⟩ := Option.isSome_iff_exists.1 h
    exact exists_spelling hd
  · rintro ⟨p, hp⟩
    rw [ofChars?_of_spelling hp]
    rfl

/-! ## Normal form -/

/-- The last digit of a number. -/
theorem getLast?_toDigits (n : ℕ) : (Nat.toDigits 10 n).getLast? = some (n % 10).digitChar := by
  rcases Nat.lt_or_ge n 10 with hlt | hge
  · rw [Nat.toDigits_of_lt_base hlt, Nat.mod_eq_of_lt hlt]
    rfl
  · rw [Nat.toDigits_of_base_le (by norm_num) hge, List.getLast?_concat]

theorem digitChar_eq_zero_iff (h : n < 10) : n.digitChar = '0' ↔ n = 0 := by
  interval_cases n <;> decide

/-- **Normal form, told by the digits**: they neither begin nor end with a zero, and without digits there is neither a
sign nor an exponent. -/
theorem isNormal_iff_digits : d.IsNormal ↔ d.digits.head? ≠ some '0' ∧ d.digits.getLast? ≠ some '0' ∧
    (d.digits = [] → d.negative = false ∧ d.exponent = 0) ∧ minExponent ≤ d.exponent ∧ d.exponent ≤ maxExponent := by
  by_cases h0 : d.coefficient = 0
  · have hnil : d.digits = [] := if_pos h0
    simp only [hnil, List.head?_nil, List.getLast?_nil, ne_eq, reduceCtorEq, not_false_eq_true, true_and, true_imp_iff]
    constructor
    · intro hd
      rw [hd.eq_zero h0]
      decide
    · rintro ⟨⟨hn, he⟩, -⟩
      obtain ⟨negative, coefficient, exponent⟩ := d
      exact .inl (by rw [zero, mk.injEq]; exact ⟨hn, h0, he⟩)
  · obtain ⟨c, rest, hdigits, hc⟩ := head_toDigits_ne h0
    have hlast : (Nat.toDigits 10 d.coefficient).getLast? ≠ some '0' ↔ d.coefficient % 10 ≠ 0 := by
      rw [getLast?_toDigits, ne_eq, Option.some.injEq, digitChar_eq_zero_iff (Nat.mod_lt _ (by norm_num))]
    rw [digits_of_ne_zero h0, hlast, hdigits]
    constructor
    · rintro (rfl | ⟨hmod, hrange⟩)
      · exact absurd rfl h0
      · exact ⟨by simpa using hc, hmod, fun hnil => absurd hnil (List.cons_ne_nil c rest), hrange⟩
    · rintro ⟨-, hmod, -, hrange⟩
      exact .inr ⟨hmod, hrange⟩

/-! ## The value -/

/-- How many zeros are dropped at the end of digits. They are counted behind the first other digit. -/
def droppedZeros (ds : List Char) : ℕ := ((ds.dropWhile (· = '0')).rtakeWhile (· = '0')).length

theorem droppedZeros_le (ds : List Char) : droppedZeros ds ≤ ds.length :=
  (List.rtakeWhile_suffix _ _).length_le.trans (List.dropWhile_sublist _).length_le

theorem ofDigitChars_dropWhile (ds : List Char) :
    Nat.ofDigitChars 10 (ds.dropWhile (· = '0')) 0 = Nat.ofDigitChars 10 ds 0 := by
  have hzeros : ds.takeWhile (· = '0') = List.replicate (ds.takeWhile (· = '0')).length '0' :=
    List.eq_replicate_of_mem fun c hc => by simpa using List.mem_takeWhile_imp hc
  conv_rhs => rw [← List.takeWhile_append_dropWhile (p := (· = '0')) (l := ds), hzeros, ofDigitChars_zeros]

/-- Digits without the zeros at both ends. -/
def significant (ds : List Char) : List Char := (ds.dropWhile (· = '0')).rdropWhile (· = '0')

theorem significant_append (ds : List Char) :
    significant ds ++ List.replicate (droppedZeros ds) '0' = ds.dropWhile (· = '0') := by
  have hzeros : (ds.dropWhile (· = '0')).rtakeWhile (· = '0') = List.replicate (droppedZeros ds) '0' :=
    List.eq_replicate_of_mem fun c hc => by simpa using List.mem_rtakeWhile_imp hc
  rw [← hzeros]
  exact List.rdropWhile_append_rtakeWhile

theorem mem_of_mem_significant {c : Char} (h : c ∈ significant ds) : c ∈ ds :=
  (List.dropWhile_sublist _).mem ((List.rdropWhile_prefix _ _).mem h)

/-- The first digit left is no zero. -/
theorem head?_significant (ds : List Char) : (significant ds).head? ≠ some '0' := by
  intro hhead
  have hfirst : (ds.dropWhile (· = '0')).head? = some '0' := by
    rw [← significant_append, List.head?_append, hhead, Option.some_or]
  simpa using stops_dropWhile (p := (· = '0')) ds '0' hfirst

/-- Where no digit is left there was none but zeros. -/
theorem droppedZeros_of_nil (h : significant ds = []) : droppedZeros ds = 0 := by
  by_contra hne
  obtain ⟨k, hk⟩ := Nat.exists_eq_succ_of_ne_zero hne
  have hfirst : (ds.dropWhile (· = '0')).head? = some '0' := by
    rw [← significant_append, h, hk, List.nil_append, List.replicate_succ, List.head?_cons]
  simpa using stops_dropWhile (p := (· = '0')) ds '0' hfirst

theorem ofDigitChars_significant (ds : List Char) :
    Nat.ofDigitChars 10 ds 0 = Nat.ofDigitChars 10 (significant ds) 0 * 10 ^ droppedZeros ds := by
  rw [← ofDigitChars_dropWhile, ← significant_append, Nat.ofDigitChars_append, Nat.ofDigitChars_replicate_zero,
    mul_comm]

/-- The last digit left is no zero. -/
theorem mod_significant (hd : ∀ c ∈ ds, c.isDigit) (hne : significant ds ≠ []) :
    Nat.ofDigitChars 10 (significant ds) 0 % 10 ≠ 0 := by
  have hlast : ¬ decide ((significant ds).getLast hne = '0') = true := List.rdropWhile_last_not _ _ hne
  have hmem : ∀ c ∈ significant ds, c.isDigit := fun c hc => hd c (mem_of_mem_significant hc)
  generalize significant ds = ys at hne hlast hmem
  obtain ⟨init, c, rfl⟩ := (List.eq_nil_or_concat' ys).resolve_left hne
  have hc := Char.isDigit_iff_toNat.1 (hmem c (by simp))
  have hc0 : c.toNat ≠ '0'.toNat := fun h => hlast (by simpa using Char.toNat_inj.1 h)
  have h0 : '0'.toNat = 48 := rfl
  have h9 : '9'.toNat = 57 := rfl
  rw [Nat.ofDigitChars_append, Nat.ofDigitChars_cons, Nat.ofDigitChars_nil]
  omega

/-- **The zeros that are dropped are the factors of ten.** -/
theorem stripZeros_ofDigitChars (hd : ∀ c ∈ ds, c.isDigit) :
    (stripZeros (Nat.ofDigitChars 10 ds 0)).2 = droppedZeros ds := by
  rw [ofDigitChars_significant]
  rcases eq_or_ne (significant ds) [] with hnil | hne
  · rw [hnil, droppedZeros_of_nil hnil]
    simp [stripZeros]
  · rw [stripZeros_mul_pow (mod_significant hd hne)]

/-- **A text whose exponents stay in their range**: the exponent that is written, the one that takes account of the
digits behind the point, and the one that takes up the zeros at the end. -/
structure Fits (p : NumberParts) : Prop where
  written : |p.exponent| ≤ maxExponent
  low : minExponent ≤ p.exponent - p.fraction.length
  high : p.exponent - p.fraction.length + droppedZeros (p.whole ++ p.fraction) ≤ maxExponent

/-- **A text is read as a decimal of its exact value.** -/
theorem value_of_spelling (h : Spelling cs p) (hp : Fits p) : ∃ d, ofChars? cs = some d ∧ d.value = p.value := by
  obtain ⟨hwritten, hlow, hhigh⟩ := hp
  refine ⟨_, ofChars?_of_spelling h, ?_⟩
  rw [abs_le] at hwritten
  have hdigits : ∀ c ∈ p.whole ++ p.fraction, c.isDigit := by
    cases h with
    | mk hs hw hp hf hne he => exact List.forall_mem_append.2 ⟨hw, hf⟩
  rw [← stripZeros_ofDigitChars hdigits] at hhigh
  rw [min_eq_right hwritten.2, max_eq_right hwritten.1, clampExponent_of_mem hlow (by omega),
    value_ofParts hlow hhigh]
  rfl

/-- **The reader of decimals.** The texts of the grammar are read, and no others. What is read is in normal form: the
digits neither begin nor end with a zero, and zero has no digits, no sign and no exponent. Where no exponent leaves its
range, the value is exactly that of the text, so that two texts are read alike if and only if they denote the same
number. -/
theorem ofString?_grammar :
    (∀ text, (ofString? text).isSome ↔ ∃ p, Spelling text.toList p) ∧
    (∀ text d, ofString? text = some d → d.digits.head? ≠ some '0' ∧ d.digits.getLast? ≠ some '0' ∧
      (d.isZero → d.digits = [] ∧ d.negative = false ∧ d.exponent = 0) ∧
      minExponent ≤ d.exponent ∧ d.exponent ≤ maxExponent) ∧
    (∀ text p, Spelling text.toList p → Fits p → ∃ d, ofString? text = some d ∧ d.value = p.value) ∧
    ∀ text text' p p', Spelling text.toList p → Fits p → Spelling text'.toList p' → Fits p' →
      (ofString? text = ofString? text' ↔ p.value = p'.value) := by
  refine ⟨fun text => isSome_ofChars?_iff, fun text d hd => ?_, fun text p => value_of_spelling, ?_⟩
  · obtain ⟨hhead, hlast, hzero, hrange⟩ := isNormal_iff_digits.1 (ofChars?_isNormal hd)
    refine ⟨hhead, hlast, fun hz => ?_, hrange⟩
    have hnil : d.digits = [] := if_pos (isZero_iff.1 hz)
    exact ⟨hnil, hzero hnil⟩
  · intro text text' p p' hspelling hfits hspelling' hfits'
    obtain ⟨d, hd, hvalue⟩ := value_of_spelling hspelling hfits
    obtain ⟨d', hd', hvalue'⟩ := value_of_spelling hspelling' hfits'
    rw [ofString?, ofString?, hd, hd', Option.some.injEq, ← hvalue, ← hvalue']
    constructor
    · rintro rfl
      rfl
    · exact eq_of_value_eq (ofChars?_isNormal hd) (ofChars?_isNormal hd')

/-- Digits, a point and an exponent may be written in many ways. -/
theorem ofString?_grammar_zeros : ofString? "-0012.50e3" = ofString? "-.0125E+6" ∧
    ∃ d, ofString? "-0012.50e3" = some d ∧ d.value = -12500 ∧ d.digits.getLast? ≠ some '0' := by
  have hthree : Digits ['3'] := ⟨by simp, by simp⟩
  have hsix : Digits ['6'] := ⟨by simp, by simp⟩
  have hfirst : Spelling "-0012.50e3".toList ⟨true, ['0', '0', '1', '2'], ['5', '0'], 3⟩ :=
    @Spelling.mk _ ['0', '0', '1', '2'] _ ['5', '0'] _ _ _ .minus (by simp) .present (by simp) (.inl (by simp))
      (.present (.inl rfl) .absent hthree)
  have hsecond : Spelling "-.0125E+6".toList ⟨true, [], ['0', '1', '2', '5'], 6⟩ :=
    @Spelling.mk _ [] _ ['0', '1', '2', '5'] _ _ _ .minus (by simp) .present (by simp) (.inr (by simp))
      (.present (.inr rfl) .plus hsix)
  have hfits : Fits ⟨true, ['0', '0', '1', '2'], ['5', '0'], 3⟩ := ⟨by decide, by decide, by decide⟩
  have hfits' : Fits ⟨true, [], ['0', '1', '2', '5'], 6⟩ := ⟨by decide, by decide, by decide⟩
  have hdigits : Nat.ofDigitChars 10 ['0', '0', '1', '2', '5', '0'] 0 = 1250 := by decide
  have hdigits' : Nat.ofDigitChars 10 ['0', '1', '2', '5'] 0 = 125 := by decide
  have hvalue : NumberParts.value ⟨true, ['0', '0', '1', '2'], ['5', '0'], 3⟩ = -12500 := by
    norm_num [NumberParts.value, hdigits]
  have hvalue' : NumberParts.value ⟨true, [], ['0', '1', '2', '5'], 6⟩ = -12500 := by
    norm_num [NumberParts.value, hdigits']
  obtain ⟨-, hnormal, hread, hsame⟩ := ofString?_grammar
  obtain ⟨d, hd, hdvalue⟩ := hread _ _ hfirst hfits
  exact ⟨(hsame _ _ _ _ hfirst hfits hsecond hfits').2 (hvalue.trans hvalue'.symm), d, hd, hdvalue.trans hvalue,
    (hnormal _ _ hd).2.1⟩

end Decimal

namespace Json

open Grammar

variable {cs : List Char} {p : NumberParts}

/-- The numbers of JSON are decimals. -/
theorem spelling_of_writes (h : p.Writes cs) : Decimal.Spelling cs p := by
  cases h with
  | mk hw hf hds he =>
    have hwhole := digits_of_whole hw
    have hdigits := digits_of_point hf hds
    exact .mk (sign_signChars _) hwhole.2 hds hdigits (.inl hwhole.1) he

end Json

end SqlJson
