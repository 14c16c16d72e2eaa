import SqlJson.Expression.Evaluation
import SqlJson.Proofs.Except
import SqlJson.Proofs.Sql.Encoding

/-!
# Parts of expressions

An expression is evaluated part by part. In the expression of a text no literal is a document: documents
come from calls only, and from texts of type `JSON`, which are read as by a call.

* `parts`: an expression and all expressions in it.
* `induct`: induction over an expression, with a hypothesis for each expression in it.
* `IsWritten`: expressions whose literals hold no documents.
* `ensures_parse`: the expression of a text has no documents in its literals.
-/

namespace SqlJson.Expression

open SqlJson.Except

/-! ## Parts -/

mutual

/-- **The parts of an expression**, itself among them. -/
def parts : Expression → List Expression
  | literal value => [literal value]
  | typed type text => [typed type text]
  | array items => array items :: partsOfItems items
  | struct fields => struct fields :: partsOfFields fields
  | call name safe args => call name safe args :: partsOfArguments args

/-- The parts of the elements of an array. -/
def partsOfItems : List Expression → List Expression
  | [] => []
  | item :: rest => parts item ++ partsOfItems rest

/-- The parts of the fields of a structure. -/
def partsOfFields : List (String × Expression) → List Expression
  | [] => []
  | (_, value) :: rest => parts value ++ partsOfFields rest

/-- The parts of the arguments of a call. -/
def partsOfArguments : List (Option String × Expression) → List Expression
  | [] => []
  | (_, value) :: rest => parts value ++ partsOfArguments rest

end

variable {items : List Expression} {fields : List (String × Expression)} {name : String} {safe : Bool}
  {args : List (Option String × Expression)} {e part : Expression} {P : Expression → Prop}

theorem partsOfItems_eq (items : List Expression) : partsOfItems items = items.flatMap parts := by
  induction items with
  | nil => rfl
  | cons item rest ih => rw [partsOfItems, ih, List.flatMap_cons]

theorem partsOfFields_eq (fields : List (String × Expression)) :
    partsOfFields fields = fields.flatMap fun field => field.2.parts := by
  induction fields with
  | nil => rfl
  | cons field rest ih => rw [partsOfFields, ih, List.flatMap_cons]

theorem partsOfArguments_eq (args : List (Option String × Expression)) :
    partsOfArguments args = args.flatMap fun arg => arg.2.parts := by
  induction args with
  | nil => rfl
  | cons arg rest ih => rw [partsOfArguments, ih, List.flatMap_cons]

theorem forall_parts_array : (∀ part ∈ (array items).parts, P part) ↔
    P (array items) ∧ ∀ item ∈ items, ∀ part ∈ item.parts, P part := by
  rw [parts, partsOfItems_eq, List.forall_mem_cons, List.forall_mem_flatMap]

theorem forall_parts_struct : (∀ part ∈ (struct fields).parts, P part) ↔
    P (struct fields) ∧ ∀ field ∈ fields, ∀ part ∈ field.2.parts, P part := by
  rw [parts, partsOfFields_eq, List.forall_mem_cons, List.forall_mem_flatMap]

theorem forall_parts_call : (∀ part ∈ (call name safe args).parts, P part) ↔
    P (call name safe args) ∧ ∀ arg ∈ args, ∀ part ∈ arg.2.parts, P part := by
  rw [parts, partsOfArguments_eq, List.forall_mem_cons, List.forall_mem_flatMap]

theorem mem_parts (e : Expression) : e ∈ e.parts := by
  cases e <;> simp [parts]

/-- Induction over an expression, with a hypothesis for each expression in it. -/
theorem induct {P : Expression → Prop} (literal : ∀ value, P (literal value))
    (typed : ∀ type text, P (typed type text)) (array : ∀ items, (∀ item ∈ items, P item) → P (array items))
    (struct : ∀ fields : List (String × Expression), (∀ field ∈ fields, P field.2) → P (struct fields))
    (call : ∀ name safe, ∀ args : List (Option String × Expression), (∀ arg ∈ args, P arg.2) →
      P (call name safe args)) (e : Expression) : P e :=
  @Expression.rec P (fun items => ∀ item ∈ items, P item) (fun fields => ∀ field ∈ fields, P field.2)
    (fun args => ∀ arg ∈ args, P arg.2) (fun field => P field.2) (fun arg => P arg.2) literal typed
    (fun items h => array items h) (fun fields h => struct fields h) (fun name safe args h => call name safe args h)
    (by simp) (fun _ _ h hs => List.forall_mem_cons.2 ⟨h, hs⟩)
    (by simp) (fun _ _ h hs => List.forall_mem_cons.2 ⟨h, hs⟩)
    (by simp) (fun _ _ h hs => List.forall_mem_cons.2 ⟨h, hs⟩) (fun _ _ h => h) (fun _ _ h => h) e

/-- A typed text stands for a value by itself, but for JSON, which is read by a call. -/
theorem evaluate_typed {config : Config} {type : SqlType} (h : type ≠ .json) (text : String) :
    evaluate config (typed type text) = liftM (literalOf type text) := by
  rw [evaluate]
  exact h

/-! ## Literals -/

/-- Whether a literal holds no document; nothing is asked of other expressions. -/
def HoldsNoDocument : Expression → Prop
  | literal value => value.documents = []
  | _ => True

/-- **An expression without documents** in its literals. -/
def IsWritten (e : Expression) : Prop := ∀ part ∈ e.parts, part.HoldsNoDocument

theorem isWritten_literal {value : SqlValue} (h : value.documents = []) : (literal value).IsWritten := by
  rw [IsWritten, parts, List.forall_mem_singleton]
  exact h

theorem isWritten_typed (type : SqlType) (text : String) : (typed type text).IsWritten := by
  rw [IsWritten, parts, List.forall_mem_singleton]
  trivial

theorem isWritten_array : (array items).IsWritten ↔ ∀ item ∈ items, item.IsWritten := by
  rw [IsWritten, forall_parts_array]
  exact and_iff_right trivial

theorem isWritten_struct : (struct fields).IsWritten ↔ ∀ field ∈ fields, field.2.IsWritten := by
  rw [IsWritten, forall_parts_struct]
  exact and_iff_right trivial

theorem isWritten_call : (call name safe args).IsWritten ↔ ∀ arg ∈ args, arg.2.IsWritten := by
  rw [IsWritten, forall_parts_call]
  exact and_iff_right trivial

/-! ## Reading -/

theorem ensures_numberLiteral (text : List Char) : Ensures (numberLiteral text) IsWritten := by
  unfold numberLiteral
  dsimp only
  split_ifs
  · split
    · exact ensures_ok (isWritten_literal rfl)
    · exact ensures_error _
  · split
    · exact ensures_ok (isWritten_literal rfl)
    · split
      · exact ensures_ok (isWritten_literal rfl)
      · exact ensures_error _

theorem ensures_typedLiteral (name text : String) : Ensures (typedLiteral name text) IsWritten := by
  unfold typedLiteral
  split
  · exact ensures_ok (isWritten_typed _ _)
  · exact ensures_error _

/-- What the readers of expressions give with a certain fuel. -/
structure ReadsWritten (fuel : ℕ) : Prop where
  expression : ∀ tokens, Ensures (readExpression fuel tokens) fun r => r.1.IsWritten
  named : ∀ name tokens, Ensures (readNamed fuel name tokens) fun r => r.1.IsWritten
  call : ∀ name safe tokens, Ensures (readCall fuel name safe tokens) fun r => r.1.IsWritten
  items : ∀ before tokens, (∀ item ∈ before, item.IsWritten) →
    Ensures (readItems fuel before tokens) fun r => r.1.IsWritten
  arguments : ∀ name safe before tokens, (∀ arg ∈ before, arg.2.IsWritten) →
    Ensures (readArguments fuel name safe before tokens) fun r => r.1.IsWritten
  fields : ∀ before tokens, (∀ field ∈ before, field.2.IsWritten) →
    Ensures (readFields fuel before tokens) fun r => r.1.IsWritten

variable {fuel : ℕ} (h : ReadsWritten fuel)
include h

theorem ensures_readExpression (tokens : List Token) :
    Ensures (readExpression (fuel + 1) tokens) fun r => r.1.IsWritten := by
  rw [readExpression]
  refine ensures_bind ?_
  rintro ⟨token, rest⟩
  dsimp only
  split
  · refine ensures_bind fun following => ?_
    split
    · exact (ensures_numberLiteral _).bind fun e he => ensures_ok he
    · exact ensures_error _
  · exact (ensures_numberLiteral _).bind fun e he => ensures_ok he
  · exact ensures_ok (isWritten_literal rfl)
  · split
    · exact ensures_ok (isWritten_array.2 (List.forall_mem_nil _))
    · exact h.items [] _ (List.forall_mem_nil _)
  · exact h.named _ _
  · exact ensures_error _

theorem ensures_readNamed (name : String) (tokens : List Token) :
    Ensures (readNamed (fuel + 1) name tokens) fun r => r.1.IsWritten := by
  rw [readNamed.eq_def]
  dsimp only
  split
  · exact ensures_ok (isWritten_literal rfl)
  · exact ensures_ok (isWritten_literal rfl)
  · exact ensures_ok (isWritten_literal rfl)
  · exact ensures_ok (isWritten_struct.2 (List.forall_mem_nil _))
  · exact h.fields [] _ (List.forall_mem_nil _)
  · split
    · exact h.call _ _ _
    · exact ensures_error _
    · exact ensures_error _
  · exact h.call _ _ _
  · exact ensures_map (fun _ he => he) (ensures_typedLiteral _ _)
  · exact ensures_error _

theorem ensures_readCall (name : String) (safe : Bool) (tokens : List Token) :
    Ensures (readCall (fuel + 1) name safe tokens) fun r => r.1.IsWritten := by
  rw [readCall.eq_def]
  split
  · exact ensures_error _
  · exact ensures_error _
  · exact ensures_ok (isWritten_call.2 (List.forall_mem_nil _))
  · rename_i hfuel
    cases hfuel
    exact h.arguments _ _ [] _ (List.forall_mem_nil _)
  · exact ensures_error _

theorem ensures_readItems (before : List Expression) (tokens : List Token)
    (hbefore : ∀ item ∈ before, item.IsWritten) :
    Ensures (readItems (fuel + 1) before tokens) fun r => r.1.IsWritten := by
  rw [readItems]
  refine (h.expression tokens).bind ?_
  rintro ⟨item, rest⟩ hitem
  have hall : ∀ e ∈ item :: before, e.IsWritten := List.forall_mem_cons.2 ⟨hitem, hbefore⟩
  refine ensures_bind fun following => ?_
  split
  · exact h.items _ _ hall
  · exact ensures_ok (isWritten_array.2 fun e he => hall e (List.mem_reverse.1 he))
  · exact ensures_error _

theorem ensures_readArguments (name : String) (safe : Bool) (before : List (Option String × Expression))
    (tokens : List Token) (hbefore : ∀ arg ∈ before, arg.2.IsWritten) :
    Ensures (readArguments (fuel + 1) name safe before tokens) fun r => r.1.IsWritten := by
  rw [readArguments]
  refine (h.expression _).bind ?_
  rintro ⟨value, rest⟩ hvalue
  have hall : ∀ arg ∈ ((argumentName tokens).1, value) :: before, arg.2.IsWritten :=
    List.forall_mem_cons.2 ⟨hvalue, hbefore⟩
  refine ensures_bind fun following => ?_
  split
  · exact h.arguments _ _ _ _ hall
  · exact ensures_ok (isWritten_call.2 fun arg harg => hall arg (List.mem_reverse.1 harg))
  · exact ensures_error _

theorem ensures_readFields (before : List (String × Expression)) (tokens : List Token)
    (hbefore : ∀ field ∈ before, field.2.IsWritten) :
    Ensures (readFields (fuel + 1) before tokens) fun r => r.1.IsWritten := by
  rw [readFields]
  refine (h.expression tokens).bind ?_
  rintro ⟨value, rest⟩ hvalue
  refine ensures_bind ?_
  rintro ⟨name, rest⟩
  have hall : ∀ field ∈ (name, value) :: before, field.2.IsWritten := List.forall_mem_cons.2 ⟨hvalue, hbefore⟩
  refine ensures_bind fun following => ?_
  split
  · exact h.fields _ _ hall
  · exact ensures_ok (isWritten_struct.2 fun field hfield => hall field (List.mem_reverse.1 hfield))
  · exact ensures_error _

omit h

theorem readsWritten (fuel : ℕ) : ReadsWritten fuel := by
  induction fuel with
  | zero =>
    exact ⟨fun _ => ensures_error _, fun _ _ => ensures_error _, fun _ _ _ => ensures_error _,
      fun _ _ _ => ensures_error _, fun _ _ _ _ _ => ensures_error _, fun _ _ _ => ensures_error _⟩
  | succ fuel ih =>
    exact ⟨ensures_readExpression ih, ensures_readNamed ih, ensures_readCall ih, ensures_readItems ih,
      ensures_readArguments ih, ensures_readFields ih⟩

theorem ensures_ofTokens (tokens : List Token) : Ensures (ofTokens tokens) IsWritten := by
  refine ((readsWritten _).expression tokens).bind ?_
  rintro ⟨e, rest⟩ he
  cases rest with
  | nil => exact ensures_ok he
  | cons token rest => exact ensures_error _

/-- **The expression of a text** has no documents in its literals. -/
theorem ensures_parse (text : String) : Ensures (parse text) IsWritten := by
  intro e he
  unfold parse at he
  have hread : Ensures (do ofTokens (← tokenize text)) IsWritten := ensures_bind ensures_ofTokens
  cases hr : (do ofTokens (← tokenize text)) with
  | ok e' =>
    rw [hr] at he
    cases he
    exact hread _ hr
  | error fault =>
    rw [hr] at he
    cases he

end SqlJson.Expression
