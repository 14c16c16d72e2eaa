import SqlJson.Engine
import SqlJson.Proofs.Edit.WellFormed
import SqlJson.Proofs.Function.Action
import SqlJson.Proofs.Function.Documents

/-!
# Calls give well-formed values

The documents in the value of a call come from the documents in the call, but for numbers, which are plain:
texts that are parsed, values that are converted and nulls that pad arrays add no others. A text that is
looked into may hold numbers that have no exact form; what is found in it is given out as text.

* `over_resolve`: documents that are looked into.
* `yields_run`: the value of a call.
* `yields_call`, `yields_safeCall`: the calls of an engine.
-/

namespace SqlJson

open Json SqlJson.Action SqlJson.Except

variable {config : Config} {Q : Number → Prop} {v : SqlValue}

/-! ## Documents that are looked into -/

theorem Input.over_resolve {input : Input} {root : Json} (h : ∀ d ∈ input.documents, d.Over Q)
    (hne : ∀ source, input ≠ .text source) (hroot : input.resolve config = some root) : root.Over Q := by
  cases input with
  | json value =>
    cases hroot
    exact h _ List.mem_cons_self
  | text source => exact absurd rfl (hne source)
  | null => cases hroot

/-- **Parts are given out as they came**: those of a text as texts, with no document in them. -/
theorem Input.each_render {input : Input} {part : Json} (h : (∀ source, input ≠ .text source) → part.Over Q) :
    (input.render part).Each (Json.Over Q) := by
  cases input with
  | text source => exact SqlValue.each_of_documents_eq_nil rfl
  | json value => exact SqlValue.each_json.2 (h fun _ => Input.noConfusion)
  | null => exact SqlValue.each_json.2 (h fun _ => Input.noConfusion)

/-! ## Values without documents -/

variable {target : ScalarType} {mode : WideMode} {json : Json} {P : Json → Prop}

theorem documents_toSql {w : Width} (x : Binary w) : x.toSql.documents = [] := by
  cases w <;> rfl

theorem documents_of_ofInt? {n : ℤ} (h : target.ofInt? n = some v) : v.documents = [] := by
  cases target with
  | integer | bigint | uinteger | ubigint =>
    simp only [ScalarType.ofInt?] at h
    split_ifs at h
    cases h
    rfl
  | _ => cases h

theorem each_strict (target : ScalarType) (mode : WideMode) (json : Json) :
    Ensures (json.strict target mode) (SqlValue.Each P) := by
  unfold strict
  split
  · exact ensures_ok (SqlValue.each_of_documents_eq_nil rfl)
  · exact ensures_ok (SqlValue.each_of_documents_eq_nil rfl)
  · exact ensures_map (fun x _ => SqlValue.each_of_documents_eq_nil rfl) ensures_any
  · exact ensures_map (fun x _ => SqlValue.each_of_documents_eq_nil rfl) ensures_any
  · split
    · split_ifs
      · unfold strictInteger
        dsimp only
        split_ifs
        · exact ensures_error _
        · split
          · rename_i value hvalue
            obtain ⟨n, -, hn⟩ := Option.bind_eq_some_iff.1 hvalue
            exact ensures_ok (SqlValue.each_of_documents_eq_nil (documents_of_ofInt? hn))
          · exact ensures_error _
      · exact ensures_error _
    · exact ensures_error _

theorem each_strictArray (target : ScalarType) (mode : WideMode) (json : Json) :
    Ensures (json.strictArray target mode) (SqlValue.Each P) := by
  unfold strictArray
  split
  · exact ensures_map (fun values h => SqlValue.each_array.2 h) (ensures_mapM (each_strict target mode) _)
  · exact ensures_error _

/-- `NULL` in place of no value. -/
theorem each_getD {x : Option SqlValue} (h : ∀ v, x = some v → v.Each P) : (x.getD .null).Each P := by
  cases x with
  | none => exact SqlValue.each_of_documents_eq_nil rfl
  | some v => exact h v rfl

theorem each_lax (target : ScalarType) (json : Json) : (json.lax target).Each P := by
  refine each_getD ?_
  intro v hv
  cases target with
  | bool | float | double | varchar =>
    obtain ⟨x, -, rfl⟩ := Option.map_eq_some_iff.1 hv
    exact SqlValue.each_of_documents_eq_nil rfl
  | integer | bigint | uinteger | ubigint =>
    obtain ⟨n, -, hn⟩ := Option.bind_eq_some_iff.1 hv
    exact SqlValue.each_of_documents_eq_nil (documents_of_ofInt? hn)

theorem each_laxArray (target : ScalarType) (json : Json) : (json.laxArray target).Each P := by
  cases json with
  | array items =>
    rw [laxArray, SqlValue.each_array, List.forall_mem_map]
    exact fun item _ => each_lax target item
  | _ => exact SqlValue.each_of_documents_eq_nil rfl

theorem each_scalarTexts? {items : List Json} {values : List SqlValue} (h : scalarTexts? items = some values) :
    ∀ v ∈ values, v.Each P := by
  fun_induction scalarTexts? items generalizing values with
  | case1 =>
    cases h
    exact List.forall_mem_nil _
  | case2 rest ih =>
    obtain ⟨others, hothers, rfl⟩ := Option.map_eq_some_iff.1 h
    exact List.forall_mem_cons.2 ⟨SqlValue.each_of_documents_eq_nil rfl, ih hothers⟩
  | case3 item rest _ ih =>
    obtain ⟨text, -, htext⟩ := Option.bind_eq_some_iff.1 h
    obtain ⟨others, hothers, hvalues⟩ := Option.bind_eq_some_iff.1 htext
    cases hvalues
    exact List.forall_mem_cons.2 ⟨SqlValue.each_of_documents_eq_nil rfl, ih hothers⟩

/-! ## Running -/

/-- What a call finds in a document, from what it makes of each part. -/
theorem yields_runLookup {input : Input} {path : Option String} {result : Json → Option SqlValue}
    (h : ∀ root p found v, input.resolve config = some root → Path.lookup p root = some found →
      result found = some v → v.Each P) : Yields (runLookup config input path result) (SqlValue.Each P) := by
  refine yields_bind fun path? => yields_pure (each_getD ?_)
  intro v hv
  obtain ⟨p, -, h₁⟩ := Option.bind_eq_some_iff.1 hv
  obtain ⟨root, hroot, h₂⟩ := Option.bind_eq_some_iff.1 h₁
  obtain ⟨found, hfound, hresult⟩ := Option.bind_eq_some_iff.1 h₂
  exact h root p found v hroot hfound hresult

/-- The edits of a call bring along what its requests make of their values. -/
theorem yields_collectEdits {α : Type} {make : Path → α → Edit} {requests : List (Option String × α)}
    (h : ∀ request ∈ requests, ∀ path, ∀ v ∈ (make path request.2).newValues, v.Over Q) :
    Yields (collectEdits make requests) fun edits => ∀ edit ∈ edits, ∀ v ∈ edit.newValues, v.Over Q := by
  induction requests with
  | nil => exact yields_pure (List.forall_mem_nil _)
  | cons request rest ih =>
    obtain ⟨text, payload⟩ := request
    obtain ⟨hrequest, hrest⟩ := List.forall_mem_cons.1 h
    rw [collectEdits]
    refine yields_bind fun path? => ?_
    cases path? with
    | none => exact ih hrest
    | some path =>
      refine yields_bind fun _ => (ih hrest).bind fun edits hedits => ?_
      exact yields_pure (List.forall_mem_cons.2 ⟨hrequest path, hedits⟩)

/-- **An edited document** is over the numbers of the document and of the values that are put in. -/
theorem yields_runEdits {α : Type} {make : Path → α → Edit} {requests : List (Option String × α)}
    {json : Option Json} (hjson : ∀ d ∈ json, d.Over Q)
    (h : ∀ request ∈ requests, ∀ path, ∀ v ∈ (make path request.2).newValues, v.Over Q) :
    Yields (runEdits config make json requests) (SqlValue.Each (Json.Over Q)) := by
  refine (yields_collectEdits h).bind fun edits hedits => ?_
  cases json with
  | none => exact yields_pure (SqlValue.each_of_documents_eq_nil rfl)
  | some root =>
    have hedited : Ensures (Edit.applyAll config.maxArrayPad root edits) (Json.Over Q) :=
      Edit.ensures_applyAll (hjson root rfl) hedits
    exact (yields_liftM hedited).bind fun edited hedited => yields_pure (SqlValue.each_json.2 hedited)

theorem yields_runStripNulls {json : Option Json} (path : Option String) (stripping : Stripping)
    (hjson : ∀ d ∈ json, d.Over Q) :
    Yields (runStripNulls config json path stripping) (SqlValue.Each (Json.Over Q)) := by
  refine yields_bind fun path? => ?_
  cases path? with
  | none => exact yields_pure (SqlValue.each_of_documents_eq_nil rfl)
  | some p =>
    cases json with
    | none => exact yields_pure (SqlValue.each_of_documents_eq_nil rfl)
    | some root =>
      have hroot : root.Over Q := hjson root rfl
      dsimp only
      cases htarget : p.lookup root with
      | none => exact yields_pure (SqlValue.each_json.2 hroot)
      | some target =>
        have hstripped := over_stripNulls stripping target (hroot.lookup htarget)
        refine (yields_liftM (P := fun result : Json × Edit.Outcome => result.1.Over Q) ?_).bind
          fun result hresult => yields_pure (SqlValue.each_json.2 hresult)
        rintro ⟨edited, outcome⟩ happly
        refine Edit.over_apply hroot ?_ happly
        refine List.forall_mem_singleton.2 ?_
        split_ifs
        · exact over_null
        · exact hstripped

variable (hQ : ∀ n : Number, n.IsPlain → Q n)
include hQ

theorem over_editValues {eachElement : Bool} (h : v.Each (Json.Over Q)) :
    ∀ item ∈ editValues eachElement v, item.Over Q := by
  have hone : ∀ item ∈ [v.toJson false], item.Over Q :=
    List.forall_mem_singleton.2 (SqlValue.over_toJson hQ v h)
  cases v with
  | array items =>
    rw [editValues]
    split_ifs
    · rw [List.forall_mem_map]
      exact fun item hitem => SqlValue.over_toJson hQ item (SqlValue.each_array.1 h item hitem)
    · exact hone
  | _ => exact hone

/-- **The value of a call** has the numbers of the documents in the call, and beside them only plain
ones. -/
theorem yields_run {call : Call} (h : call.Each (Json.Over Q)) :
    Yields (call.run config) (SqlValue.Each (Json.Over Q)) := by
  cases call with
  | parseJson text mode =>
    cases text with
    | none => exact yields_pure (SqlValue.each_of_documents_eq_nil rfl)
    | some text =>
      refine (yields_liftM (P := Json.Over Q) ?_).bind fun json hjson => yields_pure (SqlValue.each_json.2 hjson)
      intro json hparse
      unfold runParseJson at hparse
      split_ifs at hparse
      exact (isPlain_of_read hparse).mono hQ
  | toJson value stringify => exact yields_pure (SqlValue.each_json.2 (SqlValue.over_toJson hQ value h))
  | toJsonString value pretty => exact yields_pure (SqlValue.each_of_documents_eq_nil rfl)
  | jsonQuery input path =>
    refine yields_runLookup ?_
    intro root p found v hroot hfound hv
    cases hv
    exact Input.each_render fun hne => (Input.over_resolve h hne hroot).lookup hfound
  | jsonQueryArray input path =>
    refine yields_runLookup ?_
    intro root p found v hroot hfound hv
    obtain ⟨items, hitems, rfl⟩ := Option.map_eq_some_iff.1 hv
    rw [SqlValue.each_array, List.forall_mem_map]
    intro item hitem
    exact Input.each_render fun hne => ((Input.over_resolve h hne hroot).lookup hfound).items? hitems item hitem
  | jsonValue input path =>
    refine yields_runLookup ?_
    intro root p found v _ _ hv
    obtain ⟨text, -, rfl⟩ := Option.map_eq_some_iff.1 hv
    exact SqlValue.each_of_documents_eq_nil rfl
  | jsonValueArray input path =>
    refine yields_runLookup ?_
    intro root p found v _ _ hv
    obtain ⟨values, hvalues, rfl⟩ := Option.map_eq_some_iff.1 hv
    obtain ⟨items, -, htexts⟩ := Option.bind_eq_some_iff.1 hvalues
    exact SqlValue.each_array.2 (each_scalarTexts? htexts)
  | jsonSet json edits create =>
    obtain ⟨hjson, hedits⟩ := Call.forall_mem_append_documents.1 h
    refine yields_runEdits hjson ?_
    intro edit hedit path
    exact List.forall_mem_singleton.2 (SqlValue.over_toJson hQ edit.2 (hedits edit hedit))
  | jsonRemove json paths =>
    refine yields_runEdits (fun d hd => h d (Option.mem_toList.2 hd)) ?_
    intro edit _ path
    exact List.forall_mem_nil _
  | jsonArrayAppend json edits eachElement =>
    obtain ⟨hjson, hedits⟩ := Call.forall_mem_append_documents.1 h
    exact yields_runEdits hjson fun edit hedit path => over_editValues hQ (hedits edit hedit)
  | jsonArrayInsert json edits eachElement =>
    obtain ⟨hjson, hedits⟩ := Call.forall_mem_append_documents.1 h
    exact yields_runEdits hjson fun edit hedit path => over_editValues hQ (hedits edit hedit)
  | jsonType json =>
    cases json with
    | none => exact yields_pure (SqlValue.each_of_documents_eq_nil rfl)
    | some json => exact yields_pure (SqlValue.each_of_documents_eq_nil rfl)
  | jsonArray values =>
    refine yields_pure (SqlValue.each_json.2 (over_array.2 ?_))
    rw [List.forall_mem_map]
    exact fun value hvalue =>
      SqlValue.over_toJson hQ value (List.forall_mem_flatMap.1 h value hvalue)
  | jsonObject members =>
    refine yields_pure (SqlValue.each_json.2 (over_ofMembers ?_))
    rw [List.forall_mem_map]
    exact fun member hmember =>
      SqlValue.over_toJson hQ member.2 (List.forall_mem_flatMap.1 h member hmember)
  | jsonStripNulls json path arrays removeEmpty =>
    exact yields_runStripNulls path _ fun d hd => h d (Option.mem_toList.2 hd)
  | extract extractor json mode =>
    obtain ⟨lax, array, target⟩ := extractor
    cases json with
    | none => exact yields_pure (SqlValue.each_of_documents_eq_nil rfl)
    | some json =>
      cases lax with
      | true =>
        cases array with
        | true => exact yields_pure (each_laxArray target json)
        | false => exact yields_pure (each_lax target json)
      | false =>
        cases array with
        | true => exact yields_liftM (each_strictArray target mode json)
        | false => exact yields_liftM (each_strict target mode json)

/-! ## The engine -/

variable {args : List Argument}

/-- **The value of a call of an engine** has the numbers of the documents in the arguments, and beside them
only plain ones. -/
theorem yields_call (name : String) (h : ∀ arg ∈ args, arg.value.Each (Json.Over Q)) :
    Yields (Engine.call config name args) (SqlValue.Each (Json.Over Q)) :=
  (yields_liftM (Call.ensures_parse h name)).bind fun _ hcall => yields_run hQ hcall

theorem yields_safeCall (name : String) (h : ∀ arg ∈ args, arg.value.Each (Json.Over Q)) :
    Yields (Engine.safeCall config name args) (SqlValue.Each (Json.Over Q)) :=
  (yields_call hQ name h).tryCatch fun _ => yields_pure (SqlValue.each_of_documents_eq_nil rfl)

end SqlJson
