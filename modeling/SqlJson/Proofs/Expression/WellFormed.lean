import SqlJson.Expression.Evaluation
import SqlJson.Proofs.Expression.Completeness
import SqlJson.Proofs.Expression.Parts
import SqlJson.Proofs.Function.Conversion
import SqlJson.Proofs.Function.WellFormed

/-!
# Values of expressions are well formed

* `ensures_literalOf`: the values of typed texts, JSON apart.
* `yields_parts`: the values of all parts of an expression.
* `values_wellFormed`: what an engine hands out is well formed, and numbers without an exact form do not come
  up.
-/

namespace SqlJson.Expression

open SqlJson.Action SqlJson.Except

variable {config : Config} {P : Json → Prop} {Q : Number → Prop}

/-! ## Typed texts -/

theorem ensures_integerLiteral {lo hi : ℤ} {make : ℤ → SqlValue} {text : String}
    (h : ∀ n, (make n).documents = []) : Ensures (integerLiteral lo hi make text) (SqlValue.Each P) := by
  unfold integerLiteral
  split
  · exact ensures_ok (SqlValue.each_of_documents_eq_nil (h _))
  · exact ensures_error _

theorem ensures_floatLiteral (w : Width) (text : String) : Ensures (floatLiteral w text) (SqlValue.Each P) := by
  unfold floatLiteral
  dsimp only
  split
  · exact ensures_ok (SqlValue.each_of_documents_eq_nil (documents_toSql _))
  · exact ensures_error _

/-- **The value of a typed text**, JSON apart, has no documents in it. -/
theorem ensures_literalOf (type : SqlType) (text : String) : Ensures (literalOf type text) (SqlValue.Each P) := by
  unfold literalOf
  dsimp only
  cases type with
  | varchar => exact ensures_ok (SqlValue.each_of_documents_eq_nil rfl)
  | bool =>
    dsimp only
    split_ifs
    · exact ensures_ok (SqlValue.each_of_documents_eq_nil rfl)
    · exact ensures_ok (SqlValue.each_of_documents_eq_nil rfl)
    · exact ensures_error _
  | integer | bigint | uinteger | ubigint =>
    dsimp only
    exact ensures_integerLiteral fun _ => rfl
  | float | double => exact ensures_floatLiteral _ text
  | numeric | bytes | date | time | datetime | timestamp =>
    dsimp only
    split
    · rename_i hvalue
      obtain ⟨x, -, rfl⟩ := Option.map_eq_some_iff.1 hvalue
      exact ensures_ok (SqlValue.each_of_documents_eq_nil rfl)
    · exact ensures_error _
  | null | array | struct | json => exact ensures_error _

/-! ## Evaluation -/

theorem yields_evaluateItems {D : SqlValue → Prop} {items : List Expression}
    (h : ∀ item ∈ items, Yields (evaluate config item) D) :
    Yields (evaluateItems config items) fun values => ∀ v ∈ values, D v := by
  induction items with
  | nil =>
    rw [evaluateItems]
    exact yields_pure (List.forall_mem_nil D)
  | cons item rest ih =>
    obtain ⟨hitem, hrest⟩ := List.forall_mem_cons.1 h
    rw [evaluateItems]
    refine hitem.bind fun v hv => (ih hrest).bind fun values hvalues => ?_
    exact yields_pure (List.forall_mem_cons.2 ⟨hv, hvalues⟩)

theorem yields_evaluateFields {D : SqlValue → Prop} {fields : List (String × Expression)}
    (h : ∀ field ∈ fields, Yields (evaluate config field.2) D) :
    Yields (evaluateFields config fields) fun values => ∀ v ∈ values, D v.2 := by
  induction fields with
  | nil =>
    rw [evaluateFields]
    exact yields_pure (List.forall_mem_nil _)
  | cons field rest ih =>
    obtain ⟨name, value⟩ := field
    obtain ⟨hvalue, hrest⟩ := List.forall_mem_cons.1 h
    rw [evaluateFields]
    refine hvalue.bind fun v hv => (ih hrest).bind fun values hvalues => ?_
    exact yields_pure (List.forall_mem_cons.2 ⟨hv, hvalues⟩)

theorem yields_evaluateArguments {D : SqlValue → Prop} {args : List (Option String × Expression)}
    (h : ∀ arg ∈ args, Yields (evaluate config arg.2) D) :
    Yields (evaluateArguments config args) fun values => ∀ arg ∈ values, D arg.value := by
  induction args with
  | nil =>
    rw [evaluateArguments]
    exact yields_pure (List.forall_mem_nil _)
  | cons arg rest ih =>
    obtain ⟨name, value⟩ := arg
    obtain ⟨hvalue, hrest⟩ := List.forall_mem_cons.1 h
    rw [evaluateArguments]
    refine hvalue.bind fun v hv => (ih hrest).bind fun values hvalues => ?_
    exact yields_pure (List.forall_mem_cons.2 ⟨hv, hvalues⟩)

/-- The value of a typed text: JSON is read as by a call. -/
theorem yields_typed (hQ : ∀ n : Number, n.IsPlain → Q n) (type : SqlType) (text : String) :
    Yields (evaluate config (typed type text)) (SqlValue.Each (Json.Over Q)) := by
  by_cases htype : type = .json
  · subst htype
    rw [evaluate]
    refine yields_call hQ _ ?_
    exact List.forall_mem_singleton.2 (SqlValue.each_of_documents_eq_nil rfl)
  · rw [evaluate_typed htype]
    exact yields_liftM (ensures_literalOf type text)

/-- **The values of all parts of an expression**: their documents have plain numbers, if literals hold no
documents. -/
theorem yields_parts (hQ : ∀ n : Number, n.IsPlain → Q n) (e : Expression) (h : e.IsWritten) :
    ∀ part ∈ e.parts, Yields (evaluate config part) (SqlValue.Each (Json.Over Q)) := by
  induction e using induct with
  | literal value =>
    rw [parts, List.forall_mem_singleton, evaluate]
    exact yields_pure (SqlValue.each_of_documents_eq_nil (h (literal value) (mem_parts _)))
  | typed type text =>
    rw [parts, List.forall_mem_singleton]
    exact yields_typed hQ type text
  | array items ih =>
    have hitems : ∀ item ∈ items, ∀ part ∈ item.parts,
        Yields (evaluate config part) (SqlValue.Each (Json.Over Q)) := by
      intro item hitem
      exact ih item hitem (isWritten_array.1 h item hitem)
    have hvalues : Yields (evaluateItems config items) _ :=
      yields_evaluateItems fun item hitem => hitems item hitem item (mem_parts item)
    refine forall_parts_array.2 ⟨?_, hitems⟩
    rw [evaluate]
    exact hvalues.bind fun values hall => yields_pure (SqlValue.each_array.2 hall)
  | struct fields ih =>
    have hfields : ∀ field ∈ fields, ∀ part ∈ field.2.parts,
        Yields (evaluate config part) (SqlValue.Each (Json.Over Q)) := by
      intro field hfield
      exact ih field hfield (isWritten_struct.1 h field hfield)
    have hvalues : Yields (evaluateFields config fields) _ :=
      yields_evaluateFields fun field hfield => hfields field hfield field.2 (mem_parts field.2)
    refine forall_parts_struct.2 ⟨?_, hfields⟩
    rw [evaluate]
    exact hvalues.bind fun values hall => yields_pure (SqlValue.each_struct.2 hall)
  | call name safe args ih =>
    have hargs : ∀ arg ∈ args, ∀ part ∈ arg.2.parts,
        Yields (evaluate config part) (SqlValue.Each (Json.Over Q)) := by
      intro arg harg
      exact ih arg harg (isWritten_call.1 h arg harg)
    have hvalues : Yields (evaluateArguments config args) _ :=
      yields_evaluateArguments fun arg harg => hargs arg harg arg.2 (mem_parts arg.2)
    refine forall_parts_call.2 ⟨?_, hargs⟩
    rw [evaluate]
    refine hvalues.bind ?_
    intro values hall
    cases safe with
    | true => exact yields_safeCall hQ name hall
    | false => exact yields_call hQ name hall

/-- **What an engine hands out is well formed, and numbers without an exact form do not come up.** A call
whose arguments hold well-formed documents gives, if it gives a value, one with well-formed documents; and
no number in them is kept word for word unless one in the arguments is. So whatever the text of an
expression, and whatever the cache holds when the evaluation comes to a part of it, the value of the part
holds no such number. -/
theorem values_wellFormed (config : Config) (cache after : PathCache) (value : SqlValue) :
    (∀ (name : String) (args : List Argument), (∀ arg ∈ args, arg.value.Each Json.IsWellFormed) →
      (Engine.call config name args).run.run cache = (.ok value, after) →
        value.Each Json.IsWellFormed ∧
          ((∀ arg ∈ args, arg.value.Each Json.IsWideFree) → value.Each Json.IsWideFree)) ∧
    ∀ (text : String) (e : Expression), parse text = .ok e → ∀ part ∈ e.parts,
      (evaluate config part).run.run cache = (.ok value, after) →
        value.Each Json.IsWellFormed ∧ value.Each Json.IsWideFree := by
  constructor
  · intro name args hargs hcall
    refine ⟨yields_call (fun n hn => hn.1) name hargs cache value after hcall, ?_⟩
    intro hwide
    have hplain : ∀ arg ∈ args, arg.value.Each (Json.Over Number.IsPlain) := fun arg harg d hd =>
      Json.over_isPlain_iff.2 ⟨hargs arg harg d hd, hwide arg harg d hd⟩
    have hvalue := yields_call (fun _ hn => hn) name hplain cache value after hcall
    exact fun d hd => (Json.over_isPlain_iff.1 (hvalue d hd)).2
  · intro text e he part hpart hrun
    have hvalue := yields_parts (fun _ hn => hn) e (ensures_parse text e he) part hpart cache value after hrun
    exact ⟨fun d hd => (Json.over_isPlain_iff.1 (hvalue d hd)).1,
      fun d hd => (Json.over_isPlain_iff.1 (hvalue d hd)).2⟩

/-- A structure with a repeated name, a document with the greatest unsigned integer in it, and NaN, which becomes a
text; and the document in an expression. -/
theorem values_wellFormed_struct :
    (∃ document, (Engine.call .standard "to_json" [⟨none, .struct [
          ("a", .json (.object [("b", .number (.uint 18446744073709551615)), ("c", .null)])),
          ("a", .null), ("d", .double .nan)]⟩]).run.run (Engine.newCache .standard) =
        (.ok (.json document), Engine.newCache .standard) ∧
      document.IsWellFormed ∧ document.IsWideFree) ∧
    ∃ e part document, parse "TO_JSON(JSON '[7]')" = .ok e ∧ part ∈ e.parts ∧
      (evaluate .standard part).run.run (Engine.newCache .standard) =
        (.ok (.json document), Engine.newCache .standard) ∧
      document.IsWellFormed ∧ document.IsWideFree := by
  constructor
  · have hplain : Json.Over Number.IsPlain
        (.object [("b", .number (.uint 18446744073709551615)), ("c", .null)]) := by
      have hstored : Number.ofInt? 18446744073709551615 = some (.uint 18446744073709551615) := by decide
      refine Json.over_object.2 ⟨by decide, ?_⟩
      simp only [List.forall_mem_cons]
      exact ⟨Json.over_number (Number.isPlain_of_ofInt? hstored), Json.over_null, List.forall_mem_nil _⟩
    obtain ⟨hwell, hwide⟩ := Json.over_isPlain_iff.1 hplain
    have hargs {P : Json → Prop} (h : P (.object [("b", .number (.uint 18446744073709551615)), ("c", .null)])) :
        ∀ arg ∈ [Argument.mk none (.struct [
          ("a", .json (.object [("b", .number (.uint 18446744073709551615)), ("c", .null)])),
          ("a", .null), ("d", .double .nan)])], arg.value.Each P :=
      List.forall_mem_singleton.2 (List.forall_mem_singleton.2 h)
    obtain ⟨hwell, hfree⟩ := (values_wellFormed .standard (Engine.newCache .standard) _ _).1 "to_json" _
      (hargs hwell) Engine.call_toJson
    exact ⟨_, Engine.call_toJson, SqlValue.each_json.1 hwell, SqlValue.each_json.1 (hfree (hargs hwide))⟩
  · have htokens : tokenize "TO_JSON(JSON '[7]')" = .ok [.ident "TO_JSON", .leftParen,
        .ident "JSON", .string "[7]", .rightParen] := by
      decide +kernel
    have hparse : parse "TO_JSON(JSON '[7]')" = .ok (.call "TO_JSON" false [(none, .typed .json "[7]")]) := by
      have hcall : ¬Grammar.IsConstant "TO_JSON" ∧ ¬Grammar.IsWord "TO_JSON" "struct" := by
        unfold Grammar.IsConstant Grammar.IsWord
        decide +kernel
      have htype : ¬Grammar.IsConstant "JSON" ∧ Grammar.IsWord "JSON" SqlType.json.name := by
        unfold Grammar.IsConstant Grammar.IsWord
        decide +kernel
      have hderives : Grammar.Derives [.ident "TO_JSON", .leftParen, .ident "JSON", .string "[7]", .rightParen]
          (.expression (.call "TO_JSON" false [(none, .typed .json "[7]")])) :=
        .call hcall.1 hcall.2 (.parenthesized (.oneArgument (.positional (.typed htype.1 htype.2))))
      rw [parse, htokens]
      exact congrArg (Except.mapError Error.expression) (ofTokens_eq_ok_iff_derives.2 hderives)
    have hread : Json.read ⟨some .exact, Config.standard.maxDepth⟩ "[7]" = .ok (.array [.number (.int 7)]) := by
      rfl
    have hpart : Expression.typed .json "[7]" ∈
        (Expression.call "TO_JSON" false [(none, .typed .json "[7]")]).parts :=
      List.mem_cons_of_mem _ List.mem_cons_self
    have hvalue : (evaluate .standard (.typed .json "[7]")).run.run (Engine.newCache .standard) =
        (.ok (.json (.array [.number (.int 7)])), Engine.newCache .standard) := by
      rw [evaluate]
      exact Engine.call_parseJson (by decide) hread
    obtain ⟨hwell, hfree⟩ := (values_wellFormed .standard (Engine.newCache .standard) _ _).2 _ _ hparse _ hpart hvalue
    exact ⟨_, _, _, hparse, hpart, hvalue, SqlValue.each_json.1 hwell, SqlValue.each_json.1 hfree⟩

end SqlJson.Expression
