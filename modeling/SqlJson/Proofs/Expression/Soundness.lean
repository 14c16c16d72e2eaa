import SqlJson.Proofs.Expression.Reading

/-!
# What is read as an expression derives in the grammar

The readers of expressions, calls, elements, arguments and fields call one another with less fuel, so their
soundness is one statement about all of them (`readsDerived`), by induction on the fuel. What a name begins is told
by the name and the next token.
-/

namespace SqlJson.Expression

open Grammar

variable {fuel n : ℕ} {tokens ts rest : List Token} {token : Token} {name : String} {safe : Bool}
  {e : Expression}

/-! ## What is read derives in the grammar -/

/-- What the readers take off some tokens derives in the grammar. -/
structure ReadsDerived (fuel : ℕ) : Prop where
  expression : ∀ {tokens e rest}, readExpression fuel tokens = .ok (e, rest) →
    ∃ ts, tokens = ts ++ rest ∧ Derives ts (.expression e)
  named : ∀ {name tokens e rest}, readNamed fuel name tokens = .ok (e, rest) →
    ∃ ts, tokens = ts ++ rest ∧ Derives (.ident name :: ts) (.expression e)
  call : ∀ {name safe tokens e rest}, readCall fuel name safe tokens = .ok (e, rest) →
    ∃ ts args, tokens = ts ++ rest ∧ Derives ts (.parenthesized args) ∧ e = .call name safe args
  items : ∀ {before tokens e rest}, readItems fuel before tokens = .ok (e, rest) →
    ∃ ts items, tokens = ts ++ .rightBracket :: rest ∧ Derives ts (.items items) ∧
      e = .array (before.reverse ++ items)
  arguments : ∀ {name safe before tokens e rest}, readArguments fuel name safe before tokens = .ok (e, rest) →
    ∃ ts args, tokens = ts ++ .rightParen :: rest ∧ Derives ts (.arguments args) ∧
      e = .call name safe (before.reverse ++ args)
  fields : ∀ {before tokens e rest}, readFields fuel before tokens = .ok (e, rest) →
    ∃ ts fields, tokens = ts ++ .rightParen :: rest ∧ Derives ts (.fields (before.length + 1) fields) ∧
      e = .struct (before.reverse ++ fields)

variable (h : ReadsDerived fuel)
include h

theorem derives_readExpression (hread : readExpression (fuel + 1) tokens = .ok (e, rest)) :
    ∃ ts, tokens = ts ++ rest ∧ Derives ts (.expression e) := by
  rw [readExpression] at hread
  obtain ⟨⟨token, after⟩, hnext, htoken⟩ := Except.bind_eq_ok_iff.1 hread
  rw [next_eq_ok_iff.1 hnext]
  dsimp only at htoken
  split at htoken
  · obtain ⟨⟨token, after'⟩, hnext', hnumber⟩ := Except.bind_eq_ok_iff.1 htoken
    rw [next_eq_ok_iff.1 hnext']
    split at hnumber
    · rename_i text tail heq
      cases heq
      obtain ⟨v, hv, heq⟩ := map_numberLiteral_eq_ok_iff.1 hnumber
      cases heq
      exact ⟨[_, _], rfl, .negative hv⟩
    · cases hnumber
  · obtain ⟨v, hv, heq⟩ := map_numberLiteral_eq_ok_iff.1 htoken
    cases heq
    exact ⟨[_], rfl, .number hv⟩
  · cases htoken
    exact ⟨[_], rfl, .string⟩
  · split at htoken
    · cases htoken
      exact ⟨[_, _], rfl, .emptyArray⟩
    · obtain ⟨ts, items, rfl, hts, rfl⟩ := h.items htoken
      exact ⟨.leftBracket :: ts ++ [.rightBracket], by simp, .array hts⟩
  · obtain ⟨ts, rfl, hts⟩ := h.named htoken
    exact ⟨_, rfl, hts⟩
  · cases htoken

theorem derives_readNamed (hread : readNamed (fuel + 1) name tokens = .ok (e, rest)) :
    ∃ ts, tokens = ts ++ rest ∧ Derives (.ident name :: ts) (.expression e) := by
  rw [readNamed.eq_def] at hread
  dsimp only at hread
  split at hread
  · rename_i hname
    cases hread
    exact ⟨[], rfl, .null ((isWord_iff (by decide)).2 hname)⟩
  · rename_i hname
    cases hread
    exact ⟨[], rfl, .true ((isWord_iff (by decide)).2 hname)⟩
  · rename_i hname
    cases hread
    exact ⟨[], rfl, .false ((isWord_iff (by decide)).2 hname)⟩
  · rename_i hname
    cases hread
    exact ⟨[_, _], rfl, .emptyStruct ((isWord_iff (by decide)).2 hname)⟩
  · rename_i hname
    obtain ⟨ts, fields, rfl, hts, rfl⟩ := h.fields hread
    have hstruct := Derives.struct ((isWord_iff (by decide)).2 hname) hts
    exact ⟨.leftParen :: ts ++ [Token.rightParen], by simp, hstruct⟩
  · rename_i hname
    split at hread
    · obtain ⟨ts, args, rfl, hts, rfl⟩ := h.call hread
      exact ⟨_, rfl, .safeCall ((isWord_iff (by decide)).2 hname) hts⟩
    · cases hread
    · cases hread
  · rename_i hnull htrue hfalse _ hstruct
    obtain ⟨ts, args, heq, hts, rfl⟩ := h.call hread
    refine ⟨ts, heq, .call ?_ (fun hw => hstruct ((isWord_iff (by decide)).1 hw)) hts⟩
    rw [isConstant_iff]
    tauto
  · rename_i hnull htrue hfalse
    obtain ⟨type, hw, heq⟩ := map_typedLiteral_eq_ok_iff.1 hread
    cases heq
    refine ⟨[_], rfl, .typed ?_ hw⟩
    rw [isConstant_iff]
    tauto
  · cases hread

theorem derives_readCall (hread : readCall (fuel + 1) name safe tokens = .ok (e, rest)) :
    ∃ ts args, tokens = ts ++ rest ∧ Derives ts (.parenthesized args) ∧ e = .call name safe args := by
  rw [readCall.eq_def] at hread
  split at hread
  · cases hread
  · cases hread
  · cases hread
    exact ⟨[_, _], [], rfl, .noArguments, rfl⟩
  · rename_i hfuel
    cases hfuel
    obtain ⟨ts, args, rfl, hts, rfl⟩ := h.arguments hread
    exact ⟨.leftParen :: ts ++ [.rightParen], args, by simp, .parenthesized hts, rfl⟩
  · cases hread

theorem derives_readItems {before : List Expression} (hread : readItems (fuel + 1) before tokens = .ok (e, rest)) :
    ∃ ts items, tokens = ts ++ .rightBracket :: rest ∧ Derives ts (.items items) ∧
      e = .array (before.reverse ++ items) := by
  rw [readItems] at hread
  obtain ⟨⟨item, after⟩, hitem, hend⟩ := Except.bind_eq_ok_iff.1 hread
  obtain ⟨ts, rfl, hts⟩ := h.expression hitem
  obtain ⟨⟨token, after'⟩, hnext, hend⟩ := Except.bind_eq_ok_iff.1 hend
  rw [next_eq_ok_iff.1 hnext]
  split at hend
  · rename_i heq
    cases heq
    obtain ⟨us, items, rfl, hus, rfl⟩ := h.items hend
    exact ⟨ts ++ .comma :: us, item :: items, by simp, .moreItems hts hus, by simp⟩
  · rename_i heq
    cases heq
    cases hend
    exact ⟨ts, [item], rfl, .oneItem hts, by simp⟩
  · cases hend

/-- An argument with its name. -/
theorem derives_argument {argument : Option String} {body : List Token}
    (hname : argumentName tokens = (argument, body)) (hread : readExpression fuel body = .ok (e, rest)) :
    ∃ ts, tokens = ts ++ rest ∧ Derives ts (.argument argument e) := by
  obtain ⟨ts, rfl, hts⟩ := h.expression hread
  unfold argumentName at hname
  split at hname
  · cases hname
    exact ⟨_, rfl, .named hts⟩
  · cases hname
    exact ⟨ts, rfl, .positional hts⟩

theorem derives_readArguments {before : List (Option String × Expression)}
    (hread : readArguments (fuel + 1) name safe before tokens = .ok (e, rest)) :
    ∃ ts args, tokens = ts ++ .rightParen :: rest ∧ Derives ts (.arguments args) ∧
      e = .call name safe (before.reverse ++ args) := by
  rw [readArguments] at hread
  generalize hname : argumentName tokens = split at hread
  obtain ⟨argument, body⟩ := split
  obtain ⟨⟨value, after⟩, hvalue, hend⟩ := Except.bind_eq_ok_iff.1 hread
  obtain ⟨ts, heq, hts⟩ := derives_argument h hname hvalue
  obtain ⟨⟨token, after'⟩, hnext, hend⟩ := Except.bind_eq_ok_iff.1 hend
  rw [heq, next_eq_ok_iff.1 hnext]
  split at hend
  · rename_i heq
    cases heq
    obtain ⟨us, args, rfl, hus, rfl⟩ := h.arguments hend
    exact ⟨ts ++ .comma :: us, _, by simp, .moreArguments hts hus, by simp⟩
  · rename_i heq
    cases heq
    cases hend
    exact ⟨ts, _, rfl, .oneArgument hts, by simp⟩
  · cases hend

omit h in
/-- A field with its name, or else its number. -/
theorem derives_field {after : List Token} (hts : Derives ts (.expression e))
    (hname : fieldName n after = .ok (name, rest)) :
    ∃ us, ts ++ after = us ++ rest ∧ Derives us (.field n name e) := by
  unfold fieldName at hname
  split at hname
  · split_ifs at hname with hw
    · split at hname
      · cases hname
        exact ⟨ts ++ [_, _], by simp, .namedField hts hw⟩
      · cases hname
      · cases hname
    · cases hname
      exact ⟨ts, rfl, .unnamedField hts⟩
  · cases hname
    exact ⟨ts, rfl, .unnamedField hts⟩

theorem derives_readFields {before : List (String × Expression)}
    (hread : readFields (fuel + 1) before tokens = .ok (e, rest)) :
    ∃ ts fields, tokens = ts ++ .rightParen :: rest ∧ Derives ts (.fields (before.length + 1) fields) ∧
      e = .struct (before.reverse ++ fields) := by
  rw [readFields] at hread
  obtain ⟨⟨value, after⟩, hvalue, hend⟩ := Except.bind_eq_ok_iff.1 hread
  obtain ⟨vs, rfl, hvs⟩ := h.expression hvalue
  obtain ⟨⟨name, after'⟩, hname, hend⟩ := Except.bind_eq_ok_iff.1 hend
  obtain ⟨ts, heq, hts⟩ := derives_field hvs hname
  obtain ⟨⟨token, after''⟩, hnext, hend⟩ := Except.bind_eq_ok_iff.1 hend
  rw [heq, next_eq_ok_iff.1 hnext]
  split at hend
  · rename_i heq
    cases heq
    obtain ⟨us, fields, rfl, hus, rfl⟩ := h.fields hend
    exact ⟨ts ++ .comma :: us, _, by simp, .moreFields hts hus, by simp⟩
  · rename_i heq
    cases heq
    cases hend
    exact ⟨ts, _, rfl, .oneField hts, by simp⟩
  · cases hend

omit h

theorem readsDerived (fuel : ℕ) : ReadsDerived fuel := by
  induction fuel with
  | zero => exact ⟨nofun, nofun, nofun, nofun, nofun, nofun⟩
  | succ fuel ih =>
    exact ⟨derives_readExpression ih, derives_readNamed ih, derives_readCall ih, derives_readItems ih,
      derives_readArguments ih, derives_readFields ih⟩

end SqlJson.Expression
