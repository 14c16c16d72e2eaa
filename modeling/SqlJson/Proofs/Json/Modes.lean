import SqlJson.Proofs.Binary.Rounding
import SqlJson.Proofs.Json.Literals
import SqlJson.Proofs.Json.WellFormed

/-!
# One text in three modes

A number without an exact form is refused, rounded or kept. The modes of reading differ in that and in nothing
else, although they meet such a number in the middle of a text, before it is known whether the rest of the text
is well formed and whether the number is part of the document at all.

* `Number.ofDecimal_modes`: the stored forms of a decimal in all modes.
* `HasNearestDouble`, `IsWideLiteral`: the literals that can be rounded, and those without an exact form.
* `Follows`: a reading in a mode beside one without; `follows_readValue` shows it for all readers.
* `read_modes`: the three readings of a text.
-/

namespace SqlJson

open Json Grammar

/-! ## Numbers -/

variable {d : Decimal} {literal : String} {n : Number} {z : ℤ} {mode : Option WideMode} {m : WideMode}

namespace Number

/-- **A decimal in all modes**: it has an exact form, which is stored in all of them, or it is refused, rounded
or kept. -/
theorem ofDecimal_modes (hd : d.IsNormal) (literal : String) :
    (∃ n, n.isWide = false ∧ (Binary.ofDecimal .double d).isFinite = true ∧
      ∀ mode, ofDecimal d literal mode = .ok n) ∨
    (ofDecimal d literal none = .ok (.wide literal d) ∧
      ofDecimal d literal (some .exact) = .error (.precision (.notStorable literal)) ∧
      ofDecimal d literal (some .round) =
        if (Binary.ofDecimal .double d).isFinite then .ok (.double (Binary.ofDecimal .double d))
        else .error (.precision (.notRoundable literal))) := by
  cases hint : d.toInt?.bind ofInt? with
  | some n =>
    obtain ⟨z, hz, hn⟩ := Option.bind_eq_some_iff.1 hint
    obtain ⟨rfl, -⟩ := Decimal.eq_ofInt_of_toInt? hd hz
    refine .inl ⟨n, (isPlain_of_ofInt? hn).2, Binary.isFinite_ofDecimal_ofInt hn, fun mode => ?_⟩
    simp only [ofDecimal, hint]
  | none =>
    cases hx : Binary.lossless? .double d with
    | some x =>
      obtain ⟨hof, hfinite, -⟩ := Binary.lossless?_spec hx
      refine .inl ⟨.double x, rfl, by rw [hof, hfinite], fun mode => ?_⟩
      simp only [ofDecimal, hint, hx]
    | none =>
      refine .inr ⟨?_, ?_, ?_⟩ <;> simp only [ofDecimal, hint, hx]

theorem ofLiteral_eq (hd : Decimal.ofString? literal = some d) (mode : Option WideMode) :
    ofLiteral literal mode = ofDecimal d literal mode := by
  rw [ofLiteral, hd]

/-- A number with the double nearest to its value in place of a literal that was kept. -/
def rounded : Number → Number
  | wide _ value => double (Binary.ofDecimal .double value)
  | n => n

theorem rounded_of_not_isWide (h : n.isWide = false) : n.rounded = n := by
  cases n with
  | wide => cases h
  | _ => rfl

/-- What is rounded to a finite double is rounded to the one nearest to its value. -/
theorem exists_isNearest (h : n.rounded.IsPlain) (hwide : n.isWide = true) :
    ∃ x, n.rounded = .double x ∧ x.IsNearest n.toDecimal.value := by
  cases n with
  | wide literal value => exact ⟨_, rfl, Binary.isNearest_ofDecimal h.1⟩
  | _ => cases hwide

end Number

/-! ## Literals -/

namespace Json

variable {cs rest : List Char} {v : Json}

/-- A literal with a finite double nearest to it: its value is below the bound of doubles. -/
def HasNearestDouble (literal : List Char) : Prop :=
  ∃ d, Decimal.ofChars? literal = some d ∧ |d.value| < Width.overflow .double

/-- A literal without an exact form. -/
def IsWideLiteral (literal : List Char) : Prop :=
  ∃ n, Number.ofLiteral (String.ofList literal) none = .ok n ∧ n.isWide = true

/-- **A literal in all modes.** -/
theorem ofLiteral_modes (h : Literal cs) :
    (∃ n, n.isWide = false ∧ HasNearestDouble cs ∧ ∀ mode, Number.ofLiteral (String.ofList cs) mode = .ok n) ∨
    ∃ d, Decimal.ofChars? cs = some d ∧ Number.ofLiteral (String.ofList cs) none = .ok (.wide (String.ofList cs) d) ∧
      Number.ofLiteral (String.ofList cs) (some .exact) = .error (.precision (.notStorable (String.ofList cs))) ∧
      Number.ofLiteral (String.ofList cs) (some .round) =
        if (Binary.ofDecimal .double d).isFinite then .ok (.double (Binary.ofDecimal .double d))
        else .error (.precision (.notRoundable (String.ofList cs))) := by
  obtain ⟨n, hn⟩ := exists_ofLiteral h
  cases hd : Decimal.ofChars? cs with
  | none =>
    rw [Number.ofLiteral, Decimal.ofString?, String.toList_ofList, hd] at hn
    cases hn
  | some d =>
    have hstring : Decimal.ofString? (String.ofList cs) = some d := by
      rw [Decimal.ofString?, String.toList_ofList, hd]
    simp only [Number.ofLiteral_eq hstring]
    rcases Number.ofDecimal_modes (Decimal.ofChars?_isNormal hd) (String.ofList cs) with
      ⟨n, hwide, hfinite, hok⟩ | hkept
    · exact .inl ⟨n, hwide, ⟨d, hd, Binary.isFinite_ofDecimal_iff.1 hfinite⟩, hok⟩
    · exact .inr ⟨d, rfl, hkept⟩

/-- What is stored without rounding is stored so in all modes. -/
theorem restores_exact {found : List (List Char)} (h : ∀ literal ∈ found, Literal literal) (mode : Option WideMode) :
    Restores (some .exact) mode id found := by
  intro literal hmem n hn
  rcases ofLiteral_modes (h literal hmem) with ⟨n', -, -, hok⟩ | ⟨d, -, -, hexact, -⟩
  · rw [hok] at hn ⊢
    exact hn
  · rw [hexact] at hn
    cases hn

/-- Literals that have an exact form are stored by it. -/
theorem restores_of_not_isWideLiteral {found : List (List Char)} (h : ∀ literal ∈ found, Literal literal)
    (hwide : ∀ literal ∈ found, ¬IsWideLiteral literal) : Restores none (some .exact) id found := by
  intro literal hmem n hn
  rcases ofLiteral_modes (h literal hmem) with ⟨n', -, -, hok⟩ | ⟨d, -, hnone, -⟩
  · rw [hok] at hn ⊢
    exact hn
  · exact absurd ⟨_, hnone, rfl⟩ (hwide literal hmem)

/-- Literals with a nearest double are stored by it if they have no exact form. -/
theorem restores_of_hasNearestDouble {found : List (List Char)} (h : ∀ literal ∈ found, Literal literal)
    (hnearest : ∀ literal ∈ found, HasNearestDouble literal) : Restores none (some .round) Number.rounded found := by
  intro literal hmem n hn
  rcases ofLiteral_modes (h literal hmem) with ⟨n', hwide, -, hok⟩ | ⟨d, hd, hnone, -, hround⟩
  · rw [hok] at hn ⊢
    cases hn
    rw [Number.rounded_of_not_isWide hwide]
  · obtain ⟨d', hd', hbound⟩ := hnearest literal hmem
    obtain rfl : d = d' := Option.some.inj (hd.symm.trans hd')
    rw [hnone] at hn
    cases hn
    rw [hround, if_pos (Binary.isFinite_ofDecimal_iff.2 hbound)]
    rfl

theorem not_isWideLiteral_of_ofLiteral {n : Number} (h : Literal cs)
    (hn : Number.ofLiteral (String.ofList cs) (some .exact) = .ok n) : ¬IsWideLiteral cs := by
  rintro ⟨n', hnone, hwide⟩
  rcases ofLiteral_modes h with ⟨n'', hwide', -, hok⟩ | ⟨d, -, -, hexact, -⟩
  · rw [hok] at hnone
    cases hnone
    rw [hwide] at hwide'
    cases hwide'
  · rw [hexact] at hn
    cases hn

theorem hasNearestDouble_of_ofLiteral {n : Number} (h : Literal cs)
    (hn : Number.ofLiteral (String.ofList cs) (some .round) = .ok n) : HasNearestDouble cs := by
  rcases ofLiteral_modes h with ⟨n', -, hnearest, -⟩ | ⟨d, hd, -, -, hround⟩
  · exact hnearest
  · rw [hround] at hn
    split_ifs at hn with hfinite
    exact ⟨d, hd, Binary.isFinite_ofDecimal_iff.1 hfinite⟩

/-! ## Reading -/

/-- **A reading in a mode beside one without**: both go on with the same text, or both fail alike, or the one in
the mode fails because of a number. -/
inductive Follows {α β : Type} : Reading (α × List Char) → Reading (β × List Char) → Prop
  | ok (a : α) (b : β) (rest : List Char) : Follows (.ok (a, rest)) (.ok (b, rest))
  | error (failure : Failure) : Follows (.error failure) (.error failure)
  | precision (loss : PrecisionLoss) (y : Reading (β × List Char)) :
      Follows (.error (.number (.precision loss))) y

section

variable {α β γ δ : Type} {x : Reading (α × List Char)} {y : Reading (β × List Char)}

theorem follows_self (x : Reading (α × List Char)) : Follows x x := by
  cases x with
  | error failure => exact .error failure
  | ok result => exact .ok result.1 result.1 result.2

theorem Follows.bind {f : α × List Char → Reading (γ × List Char)} {g : β × List Char → Reading (δ × List Char)}
    (h : Follows x y) (hf : ∀ a b rest, Follows (f (a, rest)) (g (b, rest))) : Follows (x >>= f) (y >>= g) := by
  cases h with
  | ok a b rest => exact hf a b rest
  | error failure => exact .error failure
  | precision loss y => exact .precision loss _

/-- What both readings begin with. -/
theorem follows_bind {τ : Type} {z : Reading τ} {f : τ → Reading (γ × List Char)} {g : τ → Reading (δ × List Char)}
    (hf : ∀ t, Follows (f t) (g t)) : Follows (z >>= f) (z >>= g) := by
  cases z with
  | ok t => exact hf t
  | error failure => exact .error failure

end

/-- Any literal is stored in a mode and without one, or fails alike in both, or is refused in the mode. -/
theorem ofLiteral_cases (m : WideMode) (literal : String) :
    (∃ n n', Number.ofLiteral literal (some m) = .ok n ∧ Number.ofLiteral literal none = .ok n') ∨
      (∃ e, ∀ mode, Number.ofLiteral literal mode = .error e) ∨
      ∃ loss, Number.ofLiteral literal (some m) = .error (.precision loss) := by
  cases hd : Decimal.ofString? literal with
  | none => exact .inr (.inl ⟨_, fun mode => by rw [Number.ofLiteral, hd]⟩)
  | some d =>
    simp only [Number.ofLiteral_eq hd]
    rcases Number.ofDecimal_modes (Decimal.ofChars?_isNormal hd) literal with ⟨n, -, -, hok⟩ | ⟨hnone, hexact, hround⟩
    · exact .inl ⟨n, n, hok _, hok _⟩
    · cases m with
      | exact => exact .inr (.inr ⟨_, hexact⟩)
      | round =>
        split_ifs at hround
        · exact .inl ⟨_, _, hround, hnone⟩
        · exact .inr (.inr ⟨_, hround⟩)

theorem classify_cases (m : WideMode) (negative : Bool) (whole fraction exponent : List Char) :
    (∃ n n', classify (some m) negative whole fraction exponent = .ok n ∧
      classify none negative whole fraction exponent = .ok n') ∨
    (∃ e, ∀ mode, classify mode negative whole fraction exponent = .error e) ∨
    ∃ loss, classify (some m) negative whole fraction exponent = .error (.precision loss) := by
  dsimp only [classify]
  by_cases hint : fraction = [] ∧ exponent = []
  · simp only [if_pos hint]
    cases integer? ((if negative then ['-'] else []) ++ whole ++ fraction ++ exponent) with
    | some n => exact .inl ⟨n, n, rfl, rfl⟩
    | none => exact ofLiteral_cases m _
  · simp only [if_neg hint]
    exact ofLiteral_cases m _

theorem follows_readNumber (m : WideMode) (cs : List Char) :
    Follows (readNumber (some m) cs) (readNumber none cs) := by
  rw [readNumber_eq, readNumber_eq]
  refine follows_bind fun (whole, rest) => ?_
  refine follows_bind fun (fraction, rest) => ?_
  refine follows_bind fun (exponent, rest) => ?_
  rcases classify_cases m (splitMinus cs).1 whole fraction exponent with
    ⟨n, n', hn, hn'⟩ | ⟨e, he⟩ | ⟨loss, hloss⟩
  · simp only [hn, hn']
    exact .ok _ _ rest
  · simp only [he]
    exact .error _
  · simp only [hloss]
    exact .precision loss _

section

variable {m : WideMode} {maxDepth fuel : ℕ}
  (hvalue : ∀ depth cs,
    Follows (readValue ⟨some m, maxDepth⟩ fuel depth cs) (readValue ⟨none, maxDepth⟩ fuel depth cs))
include hvalue

theorem follows_readPadded (depth : ℕ) (cs : List Char) :
    Follows (readPadded ⟨some m, maxDepth⟩ fuel depth cs) (readPadded ⟨none, maxDepth⟩ fuel depth cs) :=
  (hvalue depth _).bind fun a b rest => .ok a b (skipBlanks rest)

theorem follows_readMember (depth : ℕ) (cs : List Char) :
    Follows (readMember ⟨some m, maxDepth⟩ fuel depth cs) (readMember ⟨none, maxDepth⟩ fuel depth cs) := by
  refine follows_bind fun (key, rest) => ?_
  dsimp only
  split
  · exact (follows_readPadded hvalue depth _).bind fun a b rest => .ok (key, a) (key, b) rest
  · exact .error _

end

section

variable {m : WideMode} {maxDepth fuel : ℕ}
  (hitems : ∀ depth before before' cs,
    Follows (readItems ⟨some m, maxDepth⟩ fuel depth before cs) (readItems ⟨none, maxDepth⟩ fuel depth before' cs))
include hitems

theorem follows_readArray (depth : ℕ) (cs : List Char) :
    Follows (readArray ⟨some m, maxDepth⟩ fuel depth cs) (readArray ⟨none, maxDepth⟩ fuel depth cs) := by
  unfold readArray
  split
  · exact .ok _ _ _
  · exact hitems _ _ _ _

/-- What is read next depends on the text alone, not on the elements read before. -/
theorem follows_readItems_succ
    (hvalue : ∀ depth cs,
      Follows (readValue ⟨some m, maxDepth⟩ fuel depth cs) (readValue ⟨none, maxDepth⟩ fuel depth cs))
    (depth : ℕ) (before before' : List Json) (cs : List Char) :
    Follows (readItems ⟨some m, maxDepth⟩ (fuel + 1) depth before cs)
      (readItems ⟨none, maxDepth⟩ (fuel + 1) depth before' cs) := by
  rw [readItems_succ, readItems_succ]
  refine (follows_readPadded hvalue depth cs).bind fun a b rest => ?_
  dsimp only
  split
  · exact .error _
  · exact hitems _ _ _ _
  · exact .ok _ _ _
  · exact .error _

end

section

variable {m : WideMode} {maxDepth fuel : ℕ}
  (hmembers : ∀ depth before before' cs,
    Follows (readMembers ⟨some m, maxDepth⟩ fuel depth before cs)
      (readMembers ⟨none, maxDepth⟩ fuel depth before' cs))
include hmembers

theorem follows_readObject (depth : ℕ) (cs : List Char) :
    Follows (readObject ⟨some m, maxDepth⟩ fuel depth cs) (readObject ⟨none, maxDepth⟩ fuel depth cs) := by
  unfold readObject
  split
  · exact .ok _ _ _
  · exact hmembers _ _ _ _

/-- What is read next depends on the text alone, not on the members read before. -/
theorem follows_readMembers_succ
    (hvalue : ∀ depth cs,
      Follows (readValue ⟨some m, maxDepth⟩ fuel depth cs) (readValue ⟨none, maxDepth⟩ fuel depth cs))
    (depth : ℕ) (before before' : Members) (cs : List Char) :
    Follows (readMembers ⟨some m, maxDepth⟩ (fuel + 1) depth before cs)
      (readMembers ⟨none, maxDepth⟩ (fuel + 1) depth before' cs) := by
  rw [readMembers_succ, readMembers_succ]
  refine (follows_readMember hvalue depth cs).bind fun a b rest => ?_
  dsimp only
  split
  · exact .error _
  · exact hmembers _ _ _ _
  · exact .ok _ _ _
  · exact .error _

end

theorem follows_readValue_succ {m : WideMode} {maxDepth fuel : ℕ}
    (hitems : ∀ depth before before' cs,
      Follows (readItems ⟨some m, maxDepth⟩ fuel depth before cs) (readItems ⟨none, maxDepth⟩ fuel depth before' cs))
    (hmembers : ∀ depth before before' cs,
      Follows (readMembers ⟨some m, maxDepth⟩ fuel depth before cs)
        (readMembers ⟨none, maxDepth⟩ fuel depth before' cs))
    (depth : ℕ) (cs : List Char) :
    Follows (readValue ⟨some m, maxDepth⟩ (fuel + 1) depth cs)
      (readValue ⟨none, maxDepth⟩ (fuel + 1) depth cs) := by
  cases opening cs with
  | empty =>
    rw [readValue_nil, readValue_nil]
    exact .error _
  | null =>
    rw [readValue_null, readValue_null]
    exact follows_self _
  | true =>
    rw [readValue_true, readValue_true]
    exact follows_self _
  | false =>
    rw [readValue_false, readValue_false]
    exact follows_self _
  | string =>
    rw [readValue_string, readValue_string]
    exact follows_self _
  | array =>
    rw [readValue_array, readValue_array]
    split_ifs
    · exact .error _
    · exact follows_readArray hitems _ _
  | object =>
    rw [readValue_object, readValue_object]
    split_ifs
    · exact .error _
    · exact follows_readObject hmembers _ _
  | other hc =>
    rw [readValue_other hc, readValue_other hc]
    split_ifs
    · exact follows_readNumber m _
    · exact .error _

/-- By induction on the fuel, which the readers of values, elements and members share. -/
theorem follows_readValue (m : WideMode) (maxDepth fuel : ℕ) :
    (∀ depth cs,
        Follows (readValue ⟨some m, maxDepth⟩ fuel depth cs) (readValue ⟨none, maxDepth⟩ fuel depth cs)) ∧
      (∀ depth before before' cs,
        Follows (readItems ⟨some m, maxDepth⟩ fuel depth before cs)
          (readItems ⟨none, maxDepth⟩ fuel depth before' cs)) ∧
      ∀ depth before before' cs,
        Follows (readMembers ⟨some m, maxDepth⟩ fuel depth before cs)
          (readMembers ⟨none, maxDepth⟩ fuel depth before' cs) := by
  induction fuel with
  | zero => exact ⟨fun _ _ => .error _, fun _ _ _ _ => .error _, fun _ _ _ _ => .error _⟩
  | succ fuel ih =>
    obtain ⟨hvalue, hitems, hmembers⟩ := ih
    exact ⟨follows_readValue_succ hitems hmembers, follows_readItems_succ hitems hvalue,
      follows_readMembers_succ hmembers hvalue⟩

theorem follows_readChars (m : WideMode) (maxDepth : ℕ) (cs : List Char) :
    (∃ v v', readChars ⟨some m, maxDepth⟩ cs = .ok v ∧ readChars ⟨none, maxDepth⟩ cs = .ok v') ∨
      (∃ failure, readChars ⟨some m, maxDepth⟩ cs = .error failure ∧ readChars ⟨none, maxDepth⟩ cs = .error failure) ∨
      ∃ loss, readChars ⟨some m, maxDepth⟩ cs = .error (.number (.precision loss)) := by
  have hfollows := (follows_readValue m maxDepth (2 * cs.length + 1)).1 0 (skipBlanks cs)
  rw [readChars, readChars]
  generalize readValue ⟨some m, maxDepth⟩ _ _ _ = x at hfollows
  generalize readValue ⟨none, maxDepth⟩ _ _ _ = y at hfollows
  cases hfollows with
  | ok a b rest =>
    cases hrest : skipBlanks rest with
    | nil => exact .inl ⟨a, b, by simp [bind, Except.bind, hrest]; rfl, by simp [bind, Except.bind, hrest]; rfl⟩
    | cons c tail =>
      refine .inr (.inl ⟨.malformed .trailingCharacters (c :: tail), ?_, ?_⟩)
      · simp [bind, Except.bind, hrest]
      · simp [bind, Except.bind, hrest]
  | error failure => exact .inr (.inl ⟨failure, rfl, rfl⟩)
  | precision loss => exact .inr (.inr ⟨loss, rfl⟩)

/-- A reading that fails because a number cannot be stored as the mode wants it. -/
def RefusesNumber (reading : Except Error Json) : Prop := ∃ loss, reading = .error (.precision loss)

/-- **A reading in a mode beside one without a mode**: both succeed, or both fail alike, or the one in the mode
fails because of a number. -/
theorem read_cases (m : WideMode) (maxDepth : ℕ) (text : String) :
    (∃ v v', read ⟨some m, maxDepth⟩ text = .ok v ∧ read ⟨none, maxDepth⟩ text = .ok v') ∨
      (∃ e, read ⟨some m, maxDepth⟩ text = .error e ∧ read ⟨none, maxDepth⟩ text = .error e) ∨
      RefusesNumber (read ⟨some m, maxDepth⟩ text) := by
  rw [read, read]
  rcases follows_readChars m maxDepth text.toList with ⟨v, v', hv, hv'⟩ | ⟨failure, h, h'⟩ | ⟨loss, hloss⟩
  · exact .inl ⟨v, v', by rw [hv]; rfl, by rw [hv']; rfl⟩
  · exact .inr (.inl ⟨_, by rw [h]; rfl, by rw [h']; rfl⟩)
  · exact .inr (.inr ⟨loss, by rw [hloss]; rfl⟩)

/-! ## The three modes -/

variable {maxDepth : ℕ} {text : String} {f : Number → Number}

/-- What is read with numbers stored in one way is read with them stored in another, if the literals of the text
are. -/
theorem read_of_restores {mode mode' : Option WideMode} (h : read ⟨mode, maxDepth⟩ text = .ok v)
    (hf : Restores mode mode' f (literals text.toList)) : read ⟨mode', maxDepth⟩ text = .ok (v.mapNumbers f) :=
  read_eq_ok_iff_denotes.2 ((stores_literals (read_eq_ok_iff_denotes.1 h)).derives mode' f hf)

/-- The literals of a text that is read are literals, and stored. -/
theorem stored_of_read {mode : Option WideMode} (h : read ⟨mode, maxDepth⟩ text = .ok v) :
    ∀ literal ∈ literals text.toList,
      Literal literal ∧ ∃ n, Number.ofLiteral (String.ofList literal) mode = .ok n :=
  (stores_literals (read_eq_ok_iff_denotes.1 h)).stored

theorem mapNumbers_id (v : Json) : v.mapNumbers id = v := mapNumbers_eq_self fun _ _ => rfl

/-- **A mode refuses a text because of its literals**, and else stores them. -/
theorem read_mode_cases {P : List Char → Prop} (hv : read ⟨none, maxDepth⟩ text = .ok v)
    (hstored : ∀ literal n, Literal literal → Number.ofLiteral (String.ofList literal) (some m) = .ok n → P literal)
    (hrestores : (∀ literal ∈ literals text.toList, P literal) → Restores none (some m) f (literals text.toList)) :
    (read ⟨some m, maxDepth⟩ text = .ok (v.mapNumbers f) ∨ RefusesNumber (read ⟨some m, maxDepth⟩ text)) ∧
      (RefusesNumber (read ⟨some m, maxDepth⟩ text) ↔
        ∃ literal ∈ literals text.toList, ¬P literal) := by
  by_cases hP : ∀ literal ∈ literals text.toList, P literal
  · have hread := read_of_restores hv (hrestores hP)
    refine ⟨.inl hread, iff_of_false ?_ (by simpa using hP)⟩
    rintro ⟨loss, hloss⟩
    rw [hread] at hloss
    cases hloss
  · have hrefused : RefusesNumber (read ⟨some m, maxDepth⟩ text) := by
      rcases read_cases m maxDepth text with ⟨v', -, hv', -⟩ | ⟨e, -, he⟩ | hloss
      · -- a text that is read has stored all of its literals
        refine absurd (fun literal hmem => ?_) hP
        obtain ⟨hliteral, n, hn⟩ := stored_of_read hv' literal hmem
        exact hstored literal n hliteral hn
      · rw [hv] at he
        cases he
      · exact hloss
    exact ⟨.inr hrefused, iff_of_true hrefused (by simpa using hP)⟩

/-- **The modes of reading differ in what becomes of numbers without an exact form, and in nothing else.** What is
read without rounding is read in every mode, as the same document, and all of its numbers have an exact form.
What is not read without a mode is read in none, and fails alike, unless a number is refused before. What is read
without a mode is read with rounding, with the nearest doubles in place of the literals kept, or refused, which it
is iff some literal of the text has no finite double nearest to it; and it is read without rounding, as it is, or
refused, which it is iff some literal has no exact form. The literals of members that are dropped count as well. -/
theorem read_modes (maxDepth : ℕ) (text : String) :
    (∀ v, read ⟨some .exact, maxDepth⟩ text = .ok v →
      read ⟨some .round, maxDepth⟩ text = .ok v ∧ read ⟨none, maxDepth⟩ text = .ok v ∧ v.IsWideFree) ∧
    (∀ e, read ⟨none, maxDepth⟩ text = .error e → ∀ m : WideMode,
      read ⟨some m, maxDepth⟩ text = .error e ∨ RefusesNumber (read ⟨some m, maxDepth⟩ text)) ∧
    ∀ v, read ⟨none, maxDepth⟩ text = .ok v →
      ((read ⟨some .round, maxDepth⟩ text = .ok (v.mapNumbers Number.rounded) ∧
            (∀ n ∈ v.numbers, n.isWide = true → ∃ x, n.rounded = .double x ∧ x.IsNearest n.toDecimal.value) ∨
          RefusesNumber (read ⟨some .round, maxDepth⟩ text)) ∧
        (RefusesNumber (read ⟨some .round, maxDepth⟩ text) ↔
          ∃ literal ∈ literals text.toList, ¬HasNearestDouble literal)) ∧
      (read ⟨some .exact, maxDepth⟩ text = .ok v ∨
          RefusesNumber (read ⟨some .exact, maxDepth⟩ text)) ∧
        (RefusesNumber (read ⟨some .exact, maxDepth⟩ text) ↔
          ∃ literal ∈ literals text.toList, IsWideLiteral literal) := by
  refine ⟨fun v hv => ?_, fun e he m => ?_, fun v hv => ⟨?_, ?_⟩⟩
  · have hliterals := fun literal hmem => (stored_of_read hv literal hmem).1
    have hread : ∀ mode, read ⟨mode, maxDepth⟩ text = .ok v := by
      intro mode
      have h := read_of_restores hv (restores_exact hliterals mode)
      rwa [mapNumbers_id] at h
    exact ⟨hread _, hread _, (over_isPlain_iff.1 (isPlain_of_read hv)).2⟩
  · rcases read_cases m maxDepth text with ⟨-, v', -, hv'⟩ | ⟨e', he', hnone⟩ | hloss
    · rw [he] at hv'
      cases hv'
    · rw [he] at hnone
      cases hnone
      exact .inl he'
    · exact .inr hloss
  · have hliterals := fun literal hmem => (stored_of_read hv literal hmem).1
    obtain ⟨hcases, hiff⟩ :=
      read_mode_cases hv (fun literal n => hasNearestDouble_of_ofLiteral) (restores_of_hasNearestDouble hliterals)
    refine ⟨hcases.imp_left fun hread => ⟨hread, fun n hn hwide => ?_⟩, hiff⟩
    exact Number.exists_isNearest (forall_numbers_mapNumbers.1 (isPlain_of_read hread).2 n hn) hwide
  · have hliterals := fun literal hmem => (stored_of_read hv literal hmem).1
    have h := read_mode_cases hv (fun literal n => not_isWideLiteral_of_ofLiteral)
      (restores_of_not_isWideLiteral hliterals)
    simpa only [mapNumbers_id, not_not] using h

/-- A number is refused although it is dropped: it is the value of a repeated key. -/
theorem read_modes_dropped :
    (∃ v, read ⟨none, 1⟩ "\x7b\"a\":1,\"a\":-1e400\x7d" = .ok v ∧ v.numbers = [.int 1]) ∧
      RefusesNumber (read ⟨some .round, 1⟩ "\x7b\"a\":1,\"a\":-1e400\x7d") ∧
      RefusesNumber (read ⟨some .exact, 1⟩ "\x7b\"a\":1,\"a\":-1e400\x7d") := by
  have hnumbers : (read ⟨none, 1⟩ "\x7b\"a\":1,\"a\":-1e400\x7d").toOption.map numbers = some [.int 1] := by
    decide +kernel
  have hliterals : literals "\x7b\"a\":1,\"a\":-1e400\x7d".toList = ["1".toList, "-1e400".toList] := by
    decide +kernel
  have hdecimal : Decimal.ofChars? "-1e400".toList = some ⟨true, 1, 400⟩ := by decide +kernel
  cases hread : read ⟨none, 1⟩ "\x7b\"a\":1,\"a\":-1e400\x7d" with
  | error e =>
    rw [hread] at hnumbers
    cases hnumbers
  | ok v =>
    obtain ⟨⟨-, hround⟩, -, hexact⟩ := (read_modes 1 "\x7b\"a\":1,\"a\":-1e400\x7d").2.2 v hread
    rw [hliterals] at hround hexact
    refine ⟨⟨v, rfl, by simpa [hread, Except.toOption] using hnumbers⟩, hround.2 ?_, hexact.2 ?_⟩
    · refine ⟨_, List.mem_cons_of_mem _ List.mem_cons_self, ?_⟩
      rintro ⟨d, hd, hlt⟩
      rw [hdecimal] at hd
      cases hd
      exact absurd (Binary.isFinite_ofDecimal_iff.2 hlt) (by decide +kernel)
    · refine ⟨_, List.mem_cons_of_mem _ List.mem_cons_self, .wide "-1e400" ⟨true, 1, 400⟩, ?_, rfl⟩
      decide +kernel

end Json

end SqlJson
