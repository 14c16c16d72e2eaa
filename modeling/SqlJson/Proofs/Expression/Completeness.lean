import SqlJson.Proofs.Expression.Soundness
import SqlJson.Proofs.Expression.Strings

/-!
# What derives in the grammar of expressions is read

That the readers are complete goes by induction on how some tokens derive in the grammar, with a lemma for each
form; two units of fuel for each token are enough. An expression is read whatever stands behind it, an argument or a
field before a comma or a parenthesis.

* `readsBack`: what derives in the grammar is read.
* `ofTokens_eq_ok_iff_derives`: some tokens are read as an expression if they derive it.
* `ofTokens_iff_derives`: the reader of expressions accepts exactly its grammar, with the strings and the numbers in
  it.
-/

namespace SqlJson.Expression

open Grammar

variable {fuel n : ℕ} {tokens ts rest : List Token} {token : Token} {name : String} {e : Expression}
  {items : List Expression} {args : List (Option String × Expression)} {fields : List (String × Expression)}
  {form : Form}

/-! ## What derives in the grammar is read -/

/-- No form begins with a closing bracket. -/
theorem exists_cons_of_derives (h : Derives ts form) :
    ∃ t tail, ts = t :: tail ∧ t ≠ .rightBracket ∧ t ≠ .rightParen := by
  have happend {us more : List Token} (hus : ∃ t tail, us = t :: tail ∧ t ≠ .rightBracket ∧ t ≠ .rightParen) :
      ∃ t tail, us ++ more = t :: tail ∧ t ≠ .rightBracket ∧ t ≠ .rightParen := by
    obtain ⟨t, tail, rfl, ht⟩ := hus
    exact ⟨t, tail ++ more, rfl, ht⟩
  induction h with
  | oneItem _ ih => exact ih
  | moreItems _ _ ih => exact happend ih
  | positional _ ih => exact ih
  | oneArgument _ ih => exact ih
  | moreArguments _ _ ih => exact happend ih
  | unnamedField _ ih => exact ih
  | namedField _ _ ih => exact happend ih
  | oneField _ ih => exact ih
  | moreFields _ _ ih => exact happend ih
  | _ => exact ⟨_, _, rfl, nofun, nofun⟩

/-- Arguments in parentheses begin with one. -/
theorem exists_leftParen_of_derives (h : Derives ts (.parenthesized args)) : ∃ tail, ts = .leftParen :: tail := by
  cases h with
  | noArguments => exact ⟨_, rfl⟩
  | parenthesized => exact ⟨_, rfl⟩

/-- Tokens that close an argument or a field. -/
def Closes (token : Token) : Prop := token = .comma ∨ token = .rightParen

/-- An expression does not begin as an argument with a name does. -/
theorem argumentName_of_derives (h : Derives ts (.expression e)) (hclose : Closes token) (rest : List Token) :
    argumentName (ts ++ token :: rest) = (none, ts ++ token :: rest) := by
  have hname {name : String} : argumentName (.ident name :: token :: rest) = (none, .ident name :: token :: rest) := by
    rcases hclose with rfl | rfl <;> rfl
  cases h with
  | null => exact hname
  | true => exact hname
  | false => exact hname
  | call _ _ hargs =>
    obtain ⟨tail, rfl⟩ := exists_leftParen_of_derives hargs
    rfl
  | _ => rfl

/-- **What some tokens are read as**, whatever stands behind them. -/
def ReadsBack (ts : List Token) : Form → Prop
  | .expression e => ∀ fuel rest, 2 * ts.length ≤ fuel → readExpression fuel (ts ++ rest) = .ok (e, rest)
  | .items items => ∀ fuel before rest, 2 * ts.length < fuel →
      readItems fuel before (ts ++ .rightBracket :: rest) = .ok (.array (before.reverse ++ items), rest)
  | .argument name e => ∀ fuel token rest, 2 * ts.length ≤ fuel → Closes token →
      ∃ body, argumentName (ts ++ token :: rest) = (name, body) ∧ readExpression fuel body = .ok (e, token :: rest)
  | .arguments args => ∀ fuel name safe before rest, 2 * ts.length < fuel →
      readArguments fuel name safe before (ts ++ .rightParen :: rest) =
        .ok (.call name safe (before.reverse ++ args), rest)
  | .parenthesized args => ∀ fuel name safe rest, 2 * ts.length ≤ fuel →
      readCall fuel name safe (ts ++ rest) = .ok (.call name safe args, rest)
  | .field n name e => ∀ fuel token rest, 2 * ts.length ≤ fuel → Closes token →
      ∃ after, readExpression fuel (ts ++ token :: rest) = .ok (e, after) ∧
        fieldName n after = .ok (name, token :: rest)
  | .fields n fields => ∀ fuel before rest, 2 * ts.length < fuel → before.length + 1 = n →
      readFields fuel before (ts ++ .rightParen :: rest) = .ok (.struct (before.reverse ++ fields), rest)

/-- An expression has a token, and so there is fuel to begin with it. -/
theorem exists_fuel (hfuel : 2 * (token :: ts).length ≤ fuel) : ∃ f, fuel = f + 1 ∧ 2 * ts.length < f := by
  rw [List.length_cons] at hfuel
  exact ⟨fuel - 1, by omega, by omega⟩

/-- With one token or more there are two units of fuel for whatever is read first. -/
theorem exists_fuel_pair (hfuel : 2 * (token :: ts).length ≤ fuel) : ∃ f, fuel = f + 2 ∧ 2 * ts.length ≤ f := by
  rw [List.length_cons] at hfuel
  exact ⟨fuel - 2, by omega, by omega⟩

/-- No closing bracket stands where something else begins. -/
theorem ne_closing_of_derives (h : Derives ts form) (more rest : List Token) :
    ts ++ more ≠ .rightBracket :: rest ∧ ts ++ more ≠ .rightParen :: rest := by
  obtain ⟨t, tail, rfl, hbracket, hparen⟩ := exists_cons_of_derives h
  exact ⟨fun heq => hbracket (List.cons.inj heq).1, fun heq => hparen (List.cons.inj heq).1⟩

/-! ### Expressions -/

theorem readsBack_number {text : String} {v : SqlValue} (hv : Numeral text.toList v) :
    ReadsBack [.number text] (.expression (.literal v)) := by
  intro fuel rest hfuel
  obtain ⟨fuel, rfl, -⟩ := exists_fuel hfuel
  rw [List.singleton_append, readExpression_number]
  exact map_numberLiteral_eq_ok_iff.2 ⟨_, hv, rfl⟩

theorem readsBack_negative {text : String} {v : SqlValue} (hv : Numeral ('-' :: text.toList) v) :
    ReadsBack [.minus, .number text] (.expression (.literal v)) := by
  intro fuel rest hfuel
  obtain ⟨fuel, rfl, -⟩ := exists_fuel hfuel
  rw [List.cons_append, List.singleton_append, readExpression_negative]
  exact map_numberLiteral_eq_ok_iff.2 ⟨_, hv, rfl⟩

theorem readsBack_string (text : String) : ReadsBack [.string text] (.expression (.literal (.varchar text))) := by
  intro fuel rest hfuel
  obtain ⟨fuel, rfl, -⟩ := exists_fuel hfuel
  exact readExpression_string

theorem readsBack_emptyArray : ReadsBack [.leftBracket, .rightBracket] (.expression (.array [])) := by
  intro fuel rest hfuel
  obtain ⟨fuel, rfl, -⟩ := exists_fuel hfuel
  exact readExpression_emptyArray

theorem readsBack_array (h : Derives ts (.items items)) (ih : ReadsBack ts (.items items)) :
    ReadsBack (.leftBracket :: ts ++ [.rightBracket]) (.expression (.array items)) := by
  rw [List.cons_append]
  intro fuel rest hfuel
  obtain ⟨fuel, rfl, hf⟩ := exists_fuel hfuel
  rw [List.length_append] at hf
  rw [List.cons_append, List.append_assoc, readExpression_array fun more => (ne_closing_of_derives h _ more).1]
  exact ih fuel [] rest (by omega)

/-! ### What a name begins -/

/-- What a name begins is read by what stands behind it. -/
theorem readsBack_ident (hnamed : ∀ fuel rest, 2 * ts.length ≤ fuel →
    readNamed (fuel + 1) name (ts ++ rest) = .ok (e, rest)) : ReadsBack (.ident name :: ts) (.expression e) := by
  intro fuel rest hfuel
  obtain ⟨fuel, rfl, hf⟩ := exists_fuel_pair hfuel
  rw [List.cons_append, readExpression_ident]
  exact hnamed fuel rest hf

theorem readsBack_typed {text : String} {type : SqlType} (hc : ¬IsConstant name) (hw : IsWord name type.name) :
    ReadsBack [.ident name, .string text] (.expression (.typed type text)) := by
  refine readsBack_ident fun fuel rest _ => ?_
  rw [List.singleton_append, readNamed_typed hc]
  exact map_typedLiteral_eq_ok_iff.2 ⟨_, hw, rfl⟩

theorem readsBack_struct (hw : IsWord name "struct") (h : Derives ts (.fields 1 fields))
    (ih : ReadsBack ts (.fields 1 fields)) :
    ReadsBack (.ident name :: .leftParen :: ts ++ [.rightParen]) (.expression (.struct fields)) := by
  rw [List.cons_append, List.cons_append]
  refine readsBack_ident fun fuel rest hfuel => ?_
  rw [List.length_cons, List.length_append] at hfuel
  rw [List.cons_append, List.append_assoc, readNamed_struct hw fun more => (ne_closing_of_derives h _ more).2]
  exact ih fuel [] rest (by omega) rfl

theorem readsBack_call (hc : ¬IsConstant name) (hs : ¬IsWord name "struct") (h : Derives ts (.parenthesized args))
    (ih : ReadsBack ts (.parenthesized args)) :
    ReadsBack (.ident name :: ts) (.expression (.call name false args)) := by
  refine readsBack_ident fun fuel rest hfuel => ?_
  have hread := ih fuel name false rest hfuel
  obtain ⟨tail, rfl⟩ := exists_leftParen_of_derives h
  rw [List.cons_append, readNamed_call hc hs]
  exact hread

theorem readsBack_safeCall {word : String} (hw : IsWord word "safe") (ih : ReadsBack ts (.parenthesized args)) :
    ReadsBack (.ident word :: .dot :: .ident name :: ts) (.expression (.call name true args)) := by
  refine readsBack_ident fun fuel rest hfuel => ?_
  simp only [List.length_cons] at hfuel
  rw [List.cons_append, List.cons_append, readNamed_safe hw]
  exact ih fuel _ _ rest (by omega)

theorem readsBack_noArguments : ReadsBack [.leftParen, .rightParen] (.parenthesized []) := by
  intro fuel name safe rest hfuel
  obtain ⟨fuel, rfl, -⟩ := exists_fuel hfuel
  exact readCall_noArguments

theorem readsBack_parenthesized (h : Derives ts (.arguments args)) (ih : ReadsBack ts (.arguments args)) :
    ReadsBack (.leftParen :: ts ++ [.rightParen]) (.parenthesized args) := by
  rw [List.cons_append]
  intro fuel name safe rest hfuel
  obtain ⟨fuel, rfl, hf⟩ := exists_fuel hfuel
  rw [List.length_append] at hf
  rw [List.cons_append, List.append_assoc, readCall_arguments fun more => (ne_closing_of_derives h _ more).2]
  exact ih fuel name safe [] rest (by omega)

/-! ### Elements -/

theorem readsBack_oneItem (ih : ReadsBack ts (.expression e)) : ReadsBack ts (.items [e]) := by
  intro fuel before rest hfuel
  obtain ⟨fuel, rfl⟩ : ∃ f, fuel = f + 1 := ⟨fuel - 1, by omega⟩
  exact readItems_last (ih fuel _ (by omega))

theorem readsBack_moreItems {us : List Token} (ih : ReadsBack ts (.expression e)) (ihs : ReadsBack us (.items items)) :
    ReadsBack (ts ++ .comma :: us) (.items (e :: items)) := by
  intro fuel before rest hfuel
  rw [List.length_append, List.length_cons] at hfuel
  obtain ⟨fuel, rfl⟩ : ∃ f, fuel = f + 1 := ⟨fuel - 1, by omega⟩
  rw [List.append_assoc, List.cons_append, readItems_more (ih fuel _ (by omega)), ihs fuel _ rest (by omega)]
  simp

/-! ### Arguments -/

theorem readsBack_positional (h : Derives ts (.expression e)) (ih : ReadsBack ts (.expression e)) :
    ReadsBack ts (.argument none e) := by
  intro fuel token rest hfuel hclose
  exact ⟨_, argumentName_of_derives h hclose rest, ih fuel _ hfuel⟩

theorem readsBack_named (ih : ReadsBack ts (.expression e)) :
    ReadsBack (.ident name :: .arrow :: ts) (.argument (some name) e) := by
  intro fuel token rest hfuel _
  simp only [List.length_cons] at hfuel
  exact ⟨_, argumentName_arrow, ih fuel _ (by omega)⟩

theorem readsBack_oneArgument {argument : Option String} (ih : ReadsBack ts (.argument argument e)) :
    ReadsBack ts (.arguments [(argument, e)]) := by
  intro fuel name safe before rest hfuel
  obtain ⟨fuel, rfl⟩ : ∃ f, fuel = f + 1 := ⟨fuel - 1, by omega⟩
  obtain ⟨body, hname, hread⟩ := ih fuel .rightParen rest (by omega) (.inr rfl)
  exact readArguments_last hname hread

theorem readsBack_moreArguments {us : List Token} {argument : Option String}
    (ih : ReadsBack ts (.argument argument e)) (ihs : ReadsBack us (.arguments args)) :
    ReadsBack (ts ++ .comma :: us) (.arguments ((argument, e) :: args)) := by
  intro fuel name safe before rest hfuel
  rw [List.length_append, List.length_cons] at hfuel
  obtain ⟨fuel, rfl⟩ : ∃ f, fuel = f + 1 := ⟨fuel - 1, by omega⟩
  rw [List.append_assoc, List.cons_append]
  obtain ⟨body, hname, hread⟩ := ih fuel .comma _ (by omega) (.inl rfl)
  rw [readArguments_more hname hread, ihs fuel name safe _ rest (by omega)]
  simp

/-! ### Fields -/

theorem readsBack_unnamedField (ih : ReadsBack ts (.expression e)) :
    ReadsBack ts (.field n ("_field_" ++ toString n) e) := by
  intro fuel token rest hfuel hclose
  refine ⟨_, ih fuel _ hfuel, ?_⟩
  rcases hclose with rfl | rfl <;> rfl

theorem readsBack_namedField {word : String} (hw : IsWord word "as") (ih : ReadsBack ts (.expression e)) :
    ReadsBack (ts ++ [.ident word, .ident name]) (.field n name e) := by
  intro fuel token rest hfuel _
  rw [List.length_append] at hfuel
  rw [List.append_assoc]
  exact ⟨_, ih fuel _ (by omega), if_pos hw⟩

theorem readsBack_oneField (ih : ReadsBack ts (.field n name e)) : ReadsBack ts (.fields n [(name, e)]) := by
  intro fuel before rest hfuel hn
  obtain ⟨fuel, rfl⟩ : ∃ f, fuel = f + 1 := ⟨fuel - 1, by omega⟩
  obtain ⟨after, hread, hname⟩ := ih fuel .rightParen rest (by omega) (.inr rfl)
  rw [← hn] at hname
  exact readFields_last hread hname

theorem readsBack_moreFields {us : List Token} (ih : ReadsBack ts (.field n name e))
    (ihs : ReadsBack us (.fields (n + 1) fields)) :
    ReadsBack (ts ++ .comma :: us) (.fields n ((name, e) :: fields)) := by
  intro fuel before rest hfuel hn
  rw [List.length_append, List.length_cons] at hfuel
  obtain ⟨fuel, rfl⟩ : ∃ f, fuel = f + 1 := ⟨fuel - 1, by omega⟩
  rw [List.append_assoc, List.cons_append]
  obtain ⟨after, hread, hname⟩ := ih fuel .comma _ (by omega) (.inl rfl)
  rw [← hn] at hname
  rw [readFields_more hread hname, ihs fuel _ rest (by omega) (by simpa using hn)]
  simp

/-! ### All forms -/

theorem readsBack (h : Derives ts form) : ReadsBack ts form := by
  induction h with
  | number hv => exact readsBack_number hv
  | negative hv => exact readsBack_negative hv
  | string => exact readsBack_string _
  | null hw => exact readsBack_ident fun _ _ _ => readNamed_constant (.head _) hw
  | true hw => exact readsBack_ident fun _ _ _ => readNamed_constant (.tail _ (.head _)) hw
  | false hw => exact readsBack_ident fun _ _ _ => readNamed_constant (.tail _ (.tail _ (.head _))) hw
  | typed hc hw => exact readsBack_typed hc hw
  | emptyArray => exact readsBack_emptyArray
  | array h ih => exact readsBack_array h ih
  | emptyStruct hw => exact readsBack_ident fun _ _ _ => readNamed_emptyStruct hw
  | struct hw h ih => exact readsBack_struct hw h ih
  | call hc hs h ih => exact readsBack_call hc hs h ih
  | safeCall hw _ ih => exact readsBack_safeCall hw ih
  | noArguments => exact readsBack_noArguments
  | parenthesized h ih => exact readsBack_parenthesized h ih
  | oneItem _ ih => exact readsBack_oneItem ih
  | moreItems _ _ ih ihs => exact readsBack_moreItems ih ihs
  | positional h ih => exact readsBack_positional h ih
  | named _ ih => exact readsBack_named ih
  | oneArgument _ ih => exact readsBack_oneArgument ih
  | moreArguments _ _ ih ihs => exact readsBack_moreArguments ih ihs
  | unnamedField _ ih => exact readsBack_unnamedField ih
  | namedField _ hw ih => exact readsBack_namedField hw ih
  | oneField _ ih => exact readsBack_oneField ih
  | moreFields _ _ ih ihs => exact readsBack_moreFields ih ihs

/-! ## Whole sequences of tokens -/

/-- **Some tokens are read as an expression** if they derive it. -/
theorem ofTokens_eq_ok_iff_derives : ofTokens tokens = .ok e ↔ Derives tokens (.expression e) := by
  unfold ofTokens
  rw [Except.bind_eq_ok_iff]
  constructor
  · rintro ⟨⟨e', rest⟩, hread, hend⟩
    obtain ⟨ts, rfl, hts⟩ := (readsDerived _).expression hread
    cases rest with
    | nil =>
      cases hend
      rw [List.append_nil]
      exact hts
    | cons token rest => cases hend
  · intro h
    have hread := readsBack h (4 * tokens.length + 4) [] (by omega)
    rw [List.append_nil] at hread
    exact ⟨_, hread, rfl⟩

/-- **Some tokens derive one expression only.** -/
theorem derives_inj {e' : Expression} (h : Derives tokens (.expression e)) (h' : Derives tokens (.expression e')) :
    e = e' := by
  rw [← ofTokens_eq_ok_iff_derives] at h h'
  rw [h] at h'
  exact Except.ok.inj h'

/-- **The reader of expressions accepts exactly its grammar.** Some tokens are read as an expression, all of them,
if they derive it. An integer that is no `BIGINT` becomes a `NUMERIC` of its exact value; the condition on the
length is that of the machine, where no text has more bytes than the greatest exponent.

A string literal in quotes of either kind is read as it is spelled, wherever it stands: a backslash escapes the quote
and itself, and stays where it is before anything else. So every text can be written as one. -/
theorem ofTokens_iff_derives :
    (∀ tokens e, ofTokens tokens = .ok e ↔ Derives tokens (.expression e)) ∧
    (∀ cs n, Text.Integral cs n → cs.length ≤ maxExponent → (Decimal.ofInt n).value = n) ∧
    ∀ quote, quote = '\'' ∨ quote = '"' →
      (∀ s : String, tokenize (String.ofList (quote :: escaped quote s.toList ++ [quote])) = .ok [.string s]) ∧
      (∀ ws s, tokenize (String.ofList (quote :: ws ++ [quote])) = .ok [.string s] ↔ Spelled quote ws s.toList) ∧
      ∀ cs token rest, readToken quote cs = .ok (token, rest) ↔
        ∃ ws text, Spelled quote ws text ∧ cs = ws ++ quote :: rest ∧ token = .string (String.ofList text) :=
  ⟨fun _ _ => ofTokens_eq_ok_iff_derives, fun _ _ h hlength => value_ofInt_of_integral h hlength,
    fun _ hquote => ⟨fun s => tokenize_escaped hquote s, fun _ _ => tokenize_quoted_eq_ok_iff hquote,
      fun _ _ _ => readToken_quote_eq_ok_iff hquote⟩⟩

/-- A structure with a call marked safe, an integer above the range of `BIGINT`, and a text with a quote and a
backslash. -/
theorem ofTokens_iff_derives_struct :
    Derives [.ident "Struct", .leftParen, .ident "safe", .dot, .ident "f", .leftParen, .ident "x", .arrow, .minus,
        .number "5", .rightParen, .ident "As", .ident "a", .comma, .ident "null", .rightParen]
      (.expression (.struct [("a", .call "f" true [(some "x", .literal (.bigint (-5)))]),
        ("_field_2", .literal .null)])) ∧
    (Decimal.ofInt 9223372036854775808).value = (9223372036854775808 : ℤ) ∧
    tokenize "'it\\'s \\\\ \"x\"'" = .ok [.string "it's \\ \"x\""] := by
  have hintegral : Text.Integral "9223372036854775808".toList 9223372036854775808 :=
    ((Text.readInteger_eq_ok_iff (by decide : (-1 : ℤ) < 0) (by decide : (0 : ℤ) ≤ 10 ^ 20)).1 (by decide)).1
  exact ⟨(ofTokens_iff_derives.1 _ _).1 (by cbv), ofTokens_iff_derives.2.1 _ _ hintegral (by decide),
    (ofTokens_iff_derives.2.2 '\'' (.inl rfl)).1 "it's \\ \"x\""⟩

end SqlJson.Expression
