import SqlJson.Proofs.Except
import SqlJson.Proofs.Expression.Numerals
import SqlJson.Proofs.Text.Case

/-!
# What the readers of expressions do

The readers are told apart here by the tokens they find, so that nothing else needs to open them.

* `isWord_iff`, `isConstant_iff`, `ofName?_eq_some_iff`: names in upper case.
* `readExpression_array`, `readNamed_struct`, `readNamed_call`, `readNamed_typed`: what some tokens begin.
* `readItems_last`, `readItems_more`: elements up to the last one and before it; arguments and fields go likewise.
-/

namespace SqlJson.Expression

open Grammar

variable {fuel : ℕ} {tokens rest body after : List Token} {token : Token} {name word text : String} {safe : Bool}
  {e : Expression}

/-! ## Names -/

/-- A name is a word if it is the same in upper case. -/
theorem isWord_iff {upper : String} (h : word.toList.map Char.toUpper = upper.toList) :
    IsWord name word ↔ Text.asciiUpper name = upper :=
  (Text.asciiUpper_eq_word_iff h).symm

theorem isConstant_iff : IsConstant name ↔
    Text.asciiUpper name = "NULL" ∨ Text.asciiUpper name = "TRUE" ∨ Text.asciiUpper name = "FALSE" := by
  exact or_congr (isWord_iff (by decide)) (or_congr (isWord_iff (by decide)) (isWord_iff (by decide)))

/-- **A type is named by its name**, in any case. -/
theorem ofName?_eq_some_iff {type : SqlType} : SqlType.ofName? name = some type ↔ IsWord name type.name := by
  have hupper : IsWord name type.name ↔ Text.asciiUpper name = type.name := by
    rw [IsWord, ← Text.asciiUpper_eq_word_iff]
    cases type <;> decide
  rw [hupper, SqlType.ofName?]
  constructor
  · intro h
    simpa [eq_comm] using List.find?_some h
  · intro h
    rw [h]
    cases type <;> rfl

theorem map_typedLiteral_eq_ok_iff {r : Expression × List Token} :
    (typedLiteral name text).map (·, rest) = .ok r ↔
      ∃ type : SqlType, IsWord name type.name ∧ r = (.typed type text, rest) := by
  unfold typedLiteral
  simp only [← ofName?_eq_some_iff]
  cases SqlType.ofName? name <;> simp [Except.map, eq_comm]

theorem map_numberLiteral_eq_ok_iff {cs : List Char} {r : Expression × List Token} :
    (do return (← numberLiteral cs, rest)) = .ok r ↔ ∃ v, Numeral cs v ∧ r = (.literal v, rest) := by
  rw [Except.bind_eq_ok_iff]
  simp only [numberLiteral_eq_ok_iff]
  constructor
  · rintro ⟨e, ⟨v, hv, rfl⟩, heq⟩
    exact ⟨v, hv, (Except.ok.inj heq).symm⟩
  · rintro ⟨v, hv, rfl⟩
    exact ⟨_, ⟨v, hv, rfl⟩, rfl⟩

/-! ## Tokens -/

theorem next_eq_ok_iff : next tokens = .ok (token, rest) ↔ tokens = token :: rest := by
  cases tokens <;> simp [next]

theorem argumentName_arrow : argumentName (.ident name :: .arrow :: rest) = (some name, rest) := rfl

/-! ## Expressions -/

theorem readExpression_number :
    readExpression (fuel + 1) (.number text :: rest) = do return (← numberLiteral text.toList, rest) := rfl

theorem readExpression_negative : readExpression (fuel + 1) (.minus :: .number text :: rest) =
    do return (← numberLiteral ('-' :: text.toList), rest) := rfl

theorem readExpression_string :
    readExpression (fuel + 1) (.string text :: rest) = .ok (.literal (.varchar text), rest) := rfl

theorem readExpression_emptyArray :
    readExpression (fuel + 1) (.leftBracket :: .rightBracket :: rest) = .ok (.array [], rest) := rfl

theorem readExpression_array (h : ∀ more, tokens ≠ .rightBracket :: more) :
    readExpression (fuel + 1) (.leftBracket :: tokens) = readItems fuel [] tokens := by
  rw [readExpression]
  simp only [next, bind, Except.bind]

theorem readExpression_ident :
    readExpression (fuel + 1) (.ident name :: rest) = readNamed fuel name rest := rfl

/-! ## What a name begins -/

/-- **A constant is read** whatever stands behind it. -/
theorem readNamed_constant {word : String} {value : SqlValue}
    (hmem : (word, value) ∈ [("null", .null), ("true", .bool true), ("false", .bool false)]) (h : IsWord name word) :
    readNamed (fuel + 1) name tokens = .ok (.literal value, tokens) := by
  simp only [List.mem_cons, List.not_mem_nil, or_false, Prod.mk.injEq] at hmem
  rw [readNamed.eq_def]
  rcases hmem with ⟨rfl, rfl⟩ | ⟨rfl, rfl⟩ | ⟨rfl, rfl⟩
  · have hname : Text.asciiUpper name = "NULL" := (isWord_iff (by decide)).1 h
    simp only [hname]
  · have hname : Text.asciiUpper name = "TRUE" := (isWord_iff (by decide)).1 h
    simp only [hname]
  · have hname : Text.asciiUpper name = "FALSE" := (isWord_iff (by decide)).1 h
    simp only [hname]

theorem readNamed_emptyStruct (h : IsWord name "struct") :
    readNamed (fuel + 1) name (.leftParen :: .rightParen :: rest) = .ok (.struct [], rest) := by
  have hname : Text.asciiUpper name = "STRUCT" := (isWord_iff (by decide)).1 h
  rw [readNamed.eq_def]
  simp only [hname]

theorem readNamed_struct (h : IsWord name "struct") (hmore : ∀ more, tokens ≠ .rightParen :: more) :
    readNamed (fuel + 1) name (.leftParen :: tokens) = readFields fuel [] tokens := by
  have hname : Text.asciiUpper name = "STRUCT" := (isWord_iff (by decide)).1 h
  rw [readNamed.eq_def]
  simp only [hname]

theorem readNamed_safe (h : IsWord word "safe") :
    readNamed (fuel + 1) word (.dot :: .ident name :: rest) = readCall fuel name true rest := by
  have hword : Text.asciiUpper word = "SAFE" := (isWord_iff (by decide)).1 h
  rw [readNamed.eq_def]
  simp only [hword]

theorem readNamed_call (hc : ¬IsConstant name) (hs : ¬IsWord name "struct") :
    readNamed (fuel + 1) name (.leftParen :: rest) = readCall fuel name false (.leftParen :: rest) := by
  have hstruct : Text.asciiUpper name ≠ "STRUCT" := fun h => hs ((isWord_iff (by decide)).2 h)
  rw [isConstant_iff] at hc
  push Not at hc
  rw [readNamed.eq_def]
  split <;> simp_all

theorem readNamed_typed (hc : ¬IsConstant name) :
    readNamed (fuel + 1) name (.string text :: rest) = (typedLiteral name text).map (·, rest) := by
  rw [isConstant_iff] at hc
  push Not at hc
  rw [readNamed.eq_def]
  split <;> simp_all

/-! ## Calls, elements, arguments and fields -/

theorem readCall_noArguments :
    readCall (fuel + 1) name safe (.leftParen :: .rightParen :: rest) = .ok (.call name safe [], rest) := rfl

theorem readCall_arguments (h : ∀ more, tokens ≠ .rightParen :: more) :
    readCall (fuel + 1) name safe (.leftParen :: tokens) = readArguments fuel name safe [] tokens := by
  rw [readCall]
  exact h

section

variable {before : List Expression}

theorem readItems_last (h : readExpression fuel tokens = .ok (e, .rightBracket :: rest)) :
    readItems (fuel + 1) before tokens = .ok (.array (before.reverse ++ [e]), rest) := by
  rw [readItems, h]
  simp [bind, Except.bind, pure, Except.pure, next]

theorem readItems_more (h : readExpression fuel tokens = .ok (e, .comma :: rest)) :
    readItems (fuel + 1) before tokens = readItems fuel (e :: before) rest := by
  rw [readItems, h]
  rfl

end

section

variable {before : List (Option String × Expression)} {argument : Option String}
  (hname : argumentName tokens = (argument, body))
include hname

theorem readArguments_last (h : readExpression fuel body = .ok (e, .rightParen :: rest)) :
    readArguments (fuel + 1) name safe before tokens =
      .ok (.call name safe (before.reverse ++ [(argument, e)]), rest) := by
  rw [readArguments, hname]
  simp [h, bind, Except.bind, pure, Except.pure, next]

theorem readArguments_more (h : readExpression fuel body = .ok (e, .comma :: rest)) :
    readArguments (fuel + 1) name safe before tokens = readArguments fuel name safe ((argument, e) :: before) rest := by
  rw [readArguments, hname]
  dsimp only
  rw [h]
  rfl

end

section

variable {before : List (String × Expression)} (h : readExpression fuel tokens = .ok (e, after))
include h

theorem readFields_last (hname : fieldName (before.length + 1) after = .ok (name, .rightParen :: rest)) :
    readFields (fuel + 1) before tokens = .ok (.struct (before.reverse ++ [(name, e)]), rest) := by
  rw [readFields, h]
  simp [hname, bind, Except.bind, pure, Except.pure, next]

theorem readFields_more (hname : fieldName (before.length + 1) after = .ok (name, .comma :: rest)) :
    readFields (fuel + 1) before tokens = readFields fuel ((name, e) :: before) rest := by
  rw [readFields, h]
  simp only [bind, Except.bind]
  rw [hname]
  rfl

end

end SqlJson.Expression
