import SqlJson.Proofs.Except
import SqlJson.Proofs.Function.Names
import SqlJson.Proofs.Sql.Encoding

/-!
# Documents in calls

A call takes the documents in it from its arguments: what each document in the arguments is, each document
in the call is.

* `Call.documents`, `Call.Each`: the documents in a call, and what all of them are.
* `ensures_ofList`, `each_get`: the documents in sorted arguments.
* `ensures_parse`: the documents in the call that a name and arguments make.
-/

namespace SqlJson

open SqlJson.Except

variable {P : Json → Prop} {args : Arguments} {list : List Argument} {values : List SqlValue}

/-! ## Arguments -/

namespace Arguments

/-- What each document in a positional argument is. Named arguments hold no documents that a call
keeps. -/
def Each (P : Json → Prop) (args : Arguments) : Prop := ∀ v ∈ args.positional, v.Each P

theorem ensures_add {allowed : List String} {arg : Argument} (h : args.Each P) (harg : arg.value.Each P) :
    Ensures (args.add allowed arg) (Each P) := by
  unfold add
  split
  · split_ifs
    · exact ensures_ok (List.forall_mem_append.2 ⟨h, List.forall_mem_singleton.2 harg⟩)
    · exact ensures_error _
  · dsimp only
    split_ifs
    · exact ensures_error _
    · exact ensures_error _
    · exact ensures_ok h

/-- **Sorted arguments** have the documents of the arguments. -/
theorem ensures_ofList (function : String) (allowed : List String) (h : ∀ arg ∈ list, arg.value.Each P) :
    Ensures (ofList function allowed list) (Each P) := by
  refine ensures_foldlM ?_ (List.forall_mem_nil _)
  intro arg harg before hbefore
  exact ensures_add hbefore (h arg harg)

theorem each_get (h : args.Each P) (i : ℕ) : (args.get i).Each P := by
  rw [get, List.getD_eq_getElem?_getD]
  cases hi : args.positional[i]? with
  | none => exact SqlValue.each_of_documents_eq_nil rfl
  | some v => exact h v (List.mem_of_getElem? hi)

theorem ensures_json? (h : args.Each P) (i : ℕ) : Ensures (args.json? i) fun json => ∀ d ∈ json, P d := by
  have hget := each_get h i
  unfold json?
  split
  · exact ensures_ok (by simp)
  · rename_i value hvalue
    rw [hvalue, SqlValue.each_json] at hget
    exact ensures_ok (by simpa using hget)
  · exact ensures_error _

end Arguments

/-- The document in an input, if that is no text. -/
def Input.documents : Input → List Json
  | .json value => [value]
  | _ => []

theorem Input.ensures_ofArguments (h : args.Each P) (i : ℕ) :
    Ensures (ofArguments args i) fun input => ∀ d ∈ input.documents, P d := by
  have hget := Arguments.each_get h i
  unfold ofArguments
  split
  · exact ensures_ok (List.forall_mem_nil P)
  · rename_i value hvalue
    rw [hvalue] at hget
    exact ensures_ok (List.forall_mem_singleton.2 (SqlValue.each_json.1 hget))
  · exact ensures_ok (List.forall_mem_nil P)
  · exact ensures_error _

/-! ## Calls -/

namespace Call

/-- **The documents in a call.** -/
def documents : Call → List Json
  | parseJson .. => []
  | toJson value _ | toJsonString value _ => value.documents
  | jsonQuery input _ | jsonQueryArray input _ | jsonValue input _ | jsonValueArray input _ => input.documents
  | jsonSet json edits _ | jsonArrayAppend json edits _ | jsonArrayInsert json edits _ =>
    json.toList ++ edits.flatMap fun edit => edit.2.documents
  | jsonRemove json _ | jsonType json | jsonStripNulls json .. | extract _ json _ => json.toList
  | jsonArray values => values.flatMap SqlValue.documents
  | jsonObject members => members.flatMap fun member => member.2.documents

/-- **What each document in a call is.** -/
def Each (P : Json → Prop) (call : Call) : Prop := ∀ d ∈ call.documents, P d

theorem forall_mem_append_documents {json : Option Json} {edits : List PathValue} :
    (∀ d ∈ json.toList ++ edits.flatMap fun edit => edit.2.documents, P d) ↔
      (∀ d ∈ json, P d) ∧ ∀ edit ∈ edits, edit.2.Each P := by
  rw [List.forall_mem_append, List.forall_mem_flatMap]
  simp only [Option.mem_toList, Option.mem_def, SqlValue.Each]

/-! ### Pairs -/

theorem ensures_pairs (function : String) : ∀ values : List SqlValue, (∀ v ∈ values, v.Each P) →
    Ensures (pathValues.pairs function values) fun edits => ∀ edit ∈ edits, edit.2.Each P
  | path :: value :: rest, h => by
    obtain ⟨-, hvalue, hrest⟩ := List.forall_mem_cons.1 h |>.imp_right List.forall_mem_cons.1
    rw [pathValues.pairs]
    refine ensures_bind fun path => (ensures_pairs function rest hrest).bind ?_
    intro edits hedits
    exact ensures_ok (List.forall_mem_cons.2 ⟨hvalue, hedits⟩)
  | [], _ | [_], _ => ensures_ok (List.forall_mem_nil _)

theorem ensures_pathValues (function : String) (h : ∀ v ∈ values, v.Each P) :
    Ensures (pathValues function values) fun edits => ∀ edit ∈ edits, edit.2.Each P := by
  unfold pathValues
  split
  · exact ensures_error _
  · split_ifs
    · exact ensures_pairs function values h
    · exact ensures_error _

theorem ensures_keyValues : ∀ values : List SqlValue, (∀ v ∈ values, v.Each P) →
    Ensures (keyValues values) fun members => ∀ member ∈ members, member.2.Each P
  | key :: value :: rest, h => by
    obtain ⟨-, hvalue, hrest⟩ := List.forall_mem_cons.1 h |>.imp_right List.forall_mem_cons.1
    cases key with
    | varchar key =>
      rw [keyValues]
      refine (ensures_keyValues rest hrest).bind ?_
      intro members hmembers
      exact ensures_ok (List.forall_mem_cons.2 ⟨hvalue, hmembers⟩)
    | _ => exact ensures_error _
  | [], _ | [_], _ => ensures_ok (List.forall_mem_nil _)

/-! ### The readers of single functions -/

variable (h : ∀ arg ∈ list, arg.value.Each P)
include h

theorem ensures_parseParseJson : Ensures (parseParseJson list) (Each P) := by
  refine (Arguments.ensures_ofList _ _ h).bind fun sorted _ => ensures_bind fun _ => ?_
  refine ensures_bind fun text => ensures_bind fun mode => ?_
  exact ensures_ok (List.forall_mem_nil P)

theorem ensures_parseToJson : Ensures (parseToJson list) (Each P) := by
  refine (Arguments.ensures_ofList _ _ h).bind fun sorted hsorted => ensures_bind fun _ => ?_
  refine ensures_bind fun stringify => ?_
  exact ensures_ok (Arguments.each_get hsorted 0)

theorem ensures_parseToJsonString : Ensures (parseToJsonString list) (Each P) := by
  refine (Arguments.ensures_ofList _ _ h).bind fun sorted hsorted => ensures_bind fun _ => ?_
  refine ensures_bind fun pretty => ?_
  exact ensures_ok (Arguments.each_get hsorted 0)

theorem ensures_parseQuery : Ensures (parseQuery list) (Each P) := by
  refine (Arguments.ensures_ofList _ _ h).bind fun sorted hsorted => ensures_bind fun _ => ?_
  refine (Input.ensures_ofArguments hsorted 0).bind fun input hinput => ensures_bind fun path => ?_
  exact ensures_ok hinput

theorem ensures_parseLookup {make : Input → Option String → Call} (name : String)
    (hmake : ∀ input path, (make input path).documents = input.documents) :
    Ensures (parseLookup name make list) (Each P) := by
  refine (Arguments.ensures_ofList _ _ h).bind fun sorted hsorted => ensures_bind fun _ => ?_
  refine (Input.ensures_ofArguments hsorted 0).bind fun input hinput => ensures_bind fun path => ?_
  refine ensures_ok ?_
  rw [Each, hmake]
  exact hinput

theorem ensures_parseEdits {make : Option Json → List PathValue → Bool → Call} (name flag : String)
    (hmake : ∀ json edits value, (make json edits value).documents =
      json.toList ++ edits.flatMap fun edit => edit.2.documents) :
    Ensures (parseEdits name flag make list) (Each P) := by
  refine (Arguments.ensures_ofList _ _ h).bind fun sorted hsorted => ensures_bind fun _ => ?_
  refine (Arguments.ensures_json? hsorted 0).bind fun json hjson => ?_
  have htail : ∀ v ∈ sorted.positional.tail, v.Each P := fun v hv => hsorted v (List.mem_of_mem_tail hv)
  refine (ensures_pathValues _ htail).bind fun edits hedits => ensures_bind fun value => ?_
  refine ensures_ok ?_
  rw [Each, hmake]
  exact forall_mem_append_documents.2 ⟨hjson, hedits⟩

theorem ensures_parseRemove : Ensures (parseRemove list) (Each P) := by
  refine (Arguments.ensures_ofList _ _ h).bind fun sorted hsorted => ensures_bind fun _ => ?_
  refine ensures_bind fun paths => (Arguments.ensures_json? hsorted 0).bind fun json hjson => ?_
  exact ensures_ok fun d hd => hjson d (Option.mem_toList.1 hd)

theorem ensures_parseType : Ensures (parseType list) (Each P) := by
  refine (Arguments.ensures_ofList _ _ h).bind fun sorted hsorted => ensures_bind fun _ => ?_
  refine (Arguments.ensures_json? hsorted 0).bind fun json hjson => ?_
  exact ensures_ok fun d hd => hjson d (Option.mem_toList.1 hd)

theorem ensures_parseArray : Ensures (parseArray list) (Each P) := by
  refine (Arguments.ensures_ofList _ _ h).bind fun sorted hsorted => ?_
  exact ensures_ok (List.forall_mem_flatMap.2 hsorted)

theorem ensures_parseObject : Ensures (parseObject list) (Each P) := by
  refine (Arguments.ensures_ofList _ _ h).bind fun sorted hsorted => ?_
  split_ifs
  · refine (ensures_keyValues _ hsorted).bind fun members hmembers => ?_
    exact ensures_ok (List.forall_mem_flatMap.2 hmembers)
  · exact ensures_error _

theorem ensures_parseStripNulls : Ensures (parseStripNulls list) (Each P) := by
  refine (Arguments.ensures_ofList _ _ h).bind fun sorted hsorted => ensures_bind fun _ => ?_
  refine (Arguments.ensures_json? hsorted 0).bind fun json hjson => ensures_bind fun path => ?_
  refine ensures_bind fun arrays => ensures_bind fun removeEmpty => ?_
  exact ensures_ok fun d hd => hjson d (Option.mem_toList.1 hd)

theorem ensures_parseExtract (extractor : Extractor) : Ensures (parseExtract extractor list) (Each P) := by
  refine (Arguments.ensures_ofList _ _ h).bind fun sorted hsorted => ensures_bind fun _ => ?_
  refine (Arguments.ensures_json? hsorted 0).bind fun json hjson => ensures_bind fun mode => ?_
  exact ensures_ok fun d hd => hjson d (Option.mem_toList.1 hd)

/-- **The call that a name and arguments make** has the documents of the arguments. -/
theorem ensures_parse (name : String) : Ensures (parse name list) (Each P) := by
  obtain ⟨parser, hnames, hparse⟩ | hunknown := parse_cases name list
  · rw [hparse]
    cases hnames with
    | parseJson => exact ensures_parseParseJson h
    | toJson => exact ensures_parseToJson h
    | toJsonString => exact ensures_parseToJsonString h
    | query => exact ensures_parseQuery h
    | queryArray | value | valueArray => exact ensures_parseLookup h _ fun _ _ => rfl
    | set | arrayAppend | arrayInsert => exact ensures_parseEdits h _ _ fun _ _ _ => rfl
    | remove => exact ensures_parseRemove h
    | type => exact ensures_parseType h
    | array => exact ensures_parseArray h
    | object => exact ensures_parseObject h
    | stripNulls => exact ensures_parseStripNulls h
    | extract => exact ensures_parseExtract h _
  · rw [hunknown]
    exact ensures_error _

end Call

end SqlJson
