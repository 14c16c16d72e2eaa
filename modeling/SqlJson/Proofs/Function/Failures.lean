import SqlJson.Proofs.Edit.Stopping
import SqlJson.Proofs.Function.Action
import SqlJson.Proofs.Function.Names
import SqlJson.Proofs.Json.Failures

/-!
# How calls fail

An edit looks once more whether its path fits some document, after all edits of the call were validated.
That look never fails: each error of a call is one meant for its caller.

* `raises_parse`: the errors in reading arguments.
* `yields_collectEdits`: the edits of a call were validated.
* `raises_call`: the errors of calls.
-/

namespace SqlJson

open SqlJson.Except

variable {α : Type}

/-! ## Arguments -/

namespace Arguments

theorem raises_add (allowed : List String) (args : Arguments) (arg : Argument) :
    Raises (args.add allowed arg) Error.Ordinary := by
  unfold add
  split
  · split_ifs
    · exact raises_ok _
    · exact raises_error fun _ => nofun
  · dsimp only
    split_ifs
    · exact raises_error fun _ => nofun
    · exact raises_error fun _ => nofun
    · exact raises_ok _

theorem raises_ofList (function : String) (allowed : List String) (list : List Argument) :
    Raises (ofList function allowed list) Error.Ordinary :=
  raises_foldlM (raises_add allowed) list _

variable (args : Arguments)

theorem raises_expectCount (lo : ℕ) (hi : Option ℕ) : Raises (args.expectCount lo hi) Error.Ordinary := by
  unfold expectCount
  split_ifs
  · exact raises_ok _
  · exact raises_error fun _ => nofun

theorem raises_flag (name : String) (default : Bool) : Raises (args.flag name default) Error.Ordinary := by
  unfold flag
  split
  · exact raises_ok _
  · exact raises_ok _
  · exact raises_ok _
  · exact raises_error fun _ => nofun

theorem raises_mode (name : String) (default : WideMode) : Raises (args.mode name default) Error.Ordinary := by
  unfold mode
  split
  · exact raises_ok _
  · exact raises_ok _
  · split
    · exact raises_ok _
    · exact raises_error fun _ => nofun
  · exact raises_error fun _ => nofun

theorem raises_json? (i : ℕ) : Raises (args.json? i) Error.Ordinary := by
  unfold json?
  split
  · exact raises_ok _
  · exact raises_ok _
  · exact raises_error fun _ => nofun

theorem raises_textOf? (function : String) (value : SqlValue) :
    Raises (textOf? function value) Error.Ordinary := by
  unfold textOf?
  split
  · exact raises_ok _
  · exact raises_ok _
  · exact raises_error fun _ => nofun

theorem raises_pathOrRoot? (i : ℕ) : Raises (args.pathOrRoot? i) Error.Ordinary := by
  unfold pathOrRoot?
  split_ifs
  · exact raises_textOf? _ _
  · exact raises_ok _

end Arguments

theorem Input.raises_ofArguments (args : Arguments) (i : ℕ) : Raises (ofArguments args i) Error.Ordinary := by
  unfold ofArguments
  split
  · exact raises_ok _
  · exact raises_ok _
  · exact raises_ok _
  · exact raises_error fun _ => nofun

namespace Call

open Arguments Input

theorem raises_pairs (function : String) (values : List SqlValue) :
    Raises (pathValues.pairs function values) Error.Ordinary := by
  fun_induction pathValues.pairs function values with
  | case1 path value rest ih => exact (raises_textOf? function path).bind fun _ => ih.bind fun _ => raises_ok _
  | case2 => exact raises_ok _

theorem raises_pathValues (function : String) (values : List SqlValue) :
    Raises (pathValues function values) Error.Ordinary := by
  unfold pathValues
  split
  · exact raises_error fun _ => nofun
  · split_ifs
    · exact raises_pairs function values
    · exact raises_error fun _ => nofun

theorem raises_keyValues : ∀ values : List SqlValue, Raises (keyValues values) Error.Ordinary
  | key :: value :: rest => by
    cases key with
    | varchar key =>
      rw [keyValues]
      exact (raises_keyValues rest).bind fun _ => raises_ok _
    | _ => exact raises_error fun _ => nofun
  | [] | [_] => raises_ok []

variable (list : List Argument)

theorem raises_parseParseJson : Raises (parseParseJson list) Error.Ordinary :=
  (raises_ofList _ _ list).bind fun args => (args.raises_expectCount _ _).bind fun _ =>
    (raises_textOf? _ _).bind fun _ => (args.raises_mode _ _).bind fun _ => raises_ok _

theorem raises_parseToJson : Raises (parseToJson list) Error.Ordinary :=
  (raises_ofList _ _ list).bind fun args => (args.raises_expectCount _ _).bind fun _ =>
    (args.raises_flag _ _).bind fun _ => raises_ok _

theorem raises_parseToJsonString : Raises (parseToJsonString list) Error.Ordinary :=
  (raises_ofList _ _ list).bind fun args => (args.raises_expectCount _ _).bind fun _ =>
    (args.raises_flag _ _).bind fun _ => raises_ok _

theorem raises_parseQuery : Raises (parseQuery list) Error.Ordinary :=
  (raises_ofList _ _ list).bind fun args => (args.raises_expectCount _ _).bind fun _ =>
    (raises_ofArguments args 0).bind fun _ => (raises_textOf? _ _).bind fun _ => raises_ok _

theorem raises_parseLookup (name : String) (make : Input → Option String → Call) :
    Raises (parseLookup name make list) Error.Ordinary :=
  (raises_ofList _ _ list).bind fun args => (args.raises_expectCount _ _).bind fun _ =>
    (raises_ofArguments args 0).bind fun _ => (args.raises_pathOrRoot? 1).bind fun _ => raises_ok _

theorem raises_parseEdits (name flag : String) (make : Option Json → List PathValue → Bool → Call) :
    Raises (parseEdits name flag make list) Error.Ordinary :=
  (raises_ofList _ _ list).bind fun args => (args.raises_expectCount _ _).bind fun _ =>
    (args.raises_json? 0).bind fun _ => (raises_pathValues _ _).bind fun _ =>
      (args.raises_flag _ _).bind fun _ => raises_ok _

theorem raises_parseRemove : Raises (parseRemove list) Error.Ordinary :=
  (raises_ofList _ _ list).bind fun args => (args.raises_expectCount _ _).bind fun _ =>
    (raises_mapM (raises_textOf? _) _).bind fun _ => (args.raises_json? 0).bind fun _ => raises_ok _

theorem raises_parseType : Raises (parseType list) Error.Ordinary :=
  (raises_ofList _ _ list).bind fun args => (args.raises_expectCount _ _).bind fun _ =>
    (args.raises_json? 0).bind fun _ => raises_ok _

theorem raises_parseArray : Raises (parseArray list) Error.Ordinary :=
  (raises_ofList _ _ list).bind fun _ => raises_ok _

theorem raises_parseObject : Raises (parseObject list) Error.Ordinary := by
  refine (raises_ofList _ _ list).bind fun args => ?_
  split_ifs
  · exact (raises_keyValues _).bind fun _ => raises_ok _
  · exact raises_error fun _ => nofun

theorem raises_parseStripNulls : Raises (parseStripNulls list) Error.Ordinary :=
  (raises_ofList _ _ list).bind fun args => (args.raises_expectCount _ _).bind fun _ =>
    (args.raises_json? 0).bind fun _ => (args.raises_pathOrRoot? 1).bind fun _ =>
      (args.raises_flag _ _).bind fun _ => (args.raises_flag _ _).bind fun _ => raises_ok _

theorem raises_parseExtract (extractor : Extractor) : Raises (parseExtract extractor list) Error.Ordinary :=
  (raises_ofList _ _ list).bind fun args => (args.raises_expectCount _ _).bind fun _ =>
    (args.raises_json? 0).bind fun _ => (args.raises_mode _ _).bind fun _ => raises_ok _

/-- **The errors in reading arguments** are meant for the caller. -/
theorem raises_parse (name : String) : Raises (parse name list) Error.Ordinary := by
  obtain ⟨parser, hnames, hparse⟩ | hunknown := parse_cases name list
  · rw [hparse]
    cases hnames with
    | parseJson => exact raises_parseParseJson list
    | toJson => exact raises_parseToJson list
    | toJsonString => exact raises_parseToJsonString list
    | query => exact raises_parseQuery list
    | queryArray | value | valueArray => exact raises_parseLookup list _ _
    | set | arrayAppend | arrayInsert => exact raises_parseEdits list _ _ _
    | remove => exact raises_parseRemove list
    | type => exact raises_parseType list
    | array => exact raises_parseArray list
    | object => exact raises_parseObject list
    | stripNulls => exact raises_parseStripNulls list
    | extract => exact raises_parseExtract list _
  · rw [hunknown]
    exact raises_error fun _ => nofun

end Call

/-! ## Extraction -/

namespace Number

theorem raises_decimalToBinary (w : Width) (d : Decimal) (text : String) (mode : WideMode) :
    Raises (decimalToBinary w d text mode) Error.Ordinary := by
  unfold decimalToBinary
  split
  · exact raises_ok _
  split
  · exact raises_error fun _ => nofun
  · dsimp only
    split_ifs
    · exact raises_ok _
    · exact raises_error fun _ => nofun

theorem raises_toDouble (n : Number) (mode : WideMode) : Raises (n.toDouble mode) Error.Ordinary := by
  unfold toDouble
  split
  · exact raises_ok _
  · exact raises_decimalToBinary _ _ _ mode

end Number

namespace Json

theorem raises_strictInteger (target : ScalarType) (n : Number) :
    Raises (strictInteger target n) Error.Ordinary := by
  unfold strictInteger
  dsimp only
  split_ifs
  · exact raises_error fun _ => nofun
  · split
    · exact raises_ok _
    · exact raises_error fun _ => nofun

theorem raises_strict (target : ScalarType) (mode : WideMode) (json : Json) :
    Raises (json.strict target mode) Error.Ordinary := by
  unfold strict
  split
  · exact raises_ok _
  · exact raises_ok _
  · exact (Number.raises_decimalToBinary _ _ _ mode).map _
  · exact (Number.raises_toDouble _ mode).map _
  · split
    · split_ifs
      · exact raises_strictInteger target _
      · exact raises_error fun _ => nofun
    · exact raises_error fun _ => nofun

theorem raises_strictArray (target : ScalarType) (mode : WideMode) (json : Json) :
    Raises (json.strictArray target mode) Error.Ordinary := by
  unfold strictArray
  split
  · exact (raises_mapM (raises_strict target mode) _).map _
  · exact raises_error fun _ => nofun

end Json

/-! ## Paths and edits -/

theorem Path.raises_compile (maxSteps : ℕ) (text : String) :
    Raises (compile maxSteps text) Error.Ordinary := by
  unfold compile
  split
  · exact raises_ok _
  · exact raises_error fun _ => nofun

theorem PathCache.raises_get (cache : PathCache) (text : String) :
    Raises (cache.get text).1 Error.Ordinary := by
  unfold get
  split
  · exact raises_ok _
  · split
    · exact raises_ok _
    · rename_i error herror
      exact raises_error (Path.raises_compile cache.maxSteps text error herror)

theorem Edit.raises_validate (edit : Edit) : Raises edit.validate Error.Ordinary := by
  unfold validate
  split
  · split_ifs
    · exact raises_error fun _ => nofun
    · exact raises_ok _
  · split_ifs
    · exact raises_error fun _ => nofun
    · exact raises_ok _
  · exact raises_ok _

namespace Action

theorem raises_compilePath (text : String) : Raises (compilePath text) Error.Ordinary := by
  intro cache error after hrun
  rw [run_compilePath] at hrun
  exact cache.raises_get text error (congrArg Prod.fst hrun)

theorem raises_compileOptional (text : Option String) : Raises (compileOptional text) Error.Ordinary := by
  cases text with
  | none => exact raises_pure none
  | some text => exact raises_bind (raises_compilePath text) fun path => raises_pure (some path)

variable (make : Path → α → Edit) (requests : List (Option String × α))

/-- **The edits of a call were validated.** -/
theorem yields_collectEdits :
    Yields (collectEdits make requests) fun edits => ∀ edit ∈ edits, edit.validate = .ok () := by
  induction requests with
  | nil => exact yields_pure (List.forall_mem_nil _)
  | cons request rest ih =>
    obtain ⟨text, payload⟩ := request
    rw [collectEdits]
    refine yields_bind fun path => ?_
    cases path with
    | none => exact ih
    | some path =>
      refine Yields.bind (yields_liftM (P := fun _ => (make path payload).validate = .ok ()) ?_) ?_
      · exact fun _ h => h
      · intro _ hvalid
        exact ih.bind fun edits hedits => yields_pure (List.forall_mem_cons.2 ⟨hvalid, hedits⟩)

theorem raises_collectEdits : Raises (collectEdits make requests) Error.Ordinary := by
  induction requests with
  | nil => exact raises_pure []
  | cons request rest ih =>
    obtain ⟨text, payload⟩ := request
    rw [collectEdits]
    refine raises_bind (raises_compileOptional text) fun path => ?_
    cases path with
    | none => exact ih
    | some path =>
      refine raises_bind (raises_liftM (make path payload).raises_validate) fun _ => ?_
      exact raises_bind ih fun edits => raises_pure _

variable (config : Config)

theorem raises_runEdits (json : Option Json) : Raises (runEdits config make json requests) Error.Ordinary := by
  refine (raises_collectEdits make requests).bind (yields_collectEdits make requests) fun edits hedits => ?_
  cases json with
  | none => exact raises_pure SqlValue.null
  | some root =>
    obtain ⟨new, hnew⟩ := Edit.exists_applyAll hedits config.maxArrayPad root
    simp only [hnew]
    exact raises_bind (raises_liftM fun error => nofun) fun edited => raises_pure _

theorem raises_runLookup (input : Input) (path : Option String) (result : Json → Option SqlValue) :
    Raises (runLookup config input path result) Error.Ordinary :=
  raises_bind (raises_compileOptional path) fun _ => raises_pure _

theorem raises_runStripNulls (json : Option Json) (path : Option String) (stripping : Json.Stripping) :
    Raises (runStripNulls config json path stripping) Error.Ordinary := by
  refine raises_bind (raises_compileOptional path) fun path => ?_
  cases path with
  | none => exact raises_pure SqlValue.null
  | some path =>
    cases json with
    | none => exact raises_pure SqlValue.null
    | some root =>
      simp only
      cases path.lookup root with
      | none => exact raises_pure _
      | some target =>
        exact raises_bind (raises_liftM fun error herror => absurd herror (Edit.apply_ne_error rfl)) fun _ =>
          raises_pure _

end Action

/-! ## Calls -/

open SqlJson.Action

variable (config : Config)

theorem raises_runParseJson (mode : WideMode) (text : String) :
    Except.Raises (runParseJson config mode text) Error.Ordinary := by
  unfold runParseJson
  split_ifs
  · exact raises_error fun _ => nofun
  · exact Json.raises_read _ text

theorem raises_run (call : Call) : Raises (call.run config) Error.Ordinary := by
  cases call with
  | parseJson text mode =>
    cases text with
    | none => exact raises_pure SqlValue.null
    | some text => exact raises_bind (raises_liftM (raises_runParseJson config mode text)) fun json => raises_pure _
  | toJson value stringify => exact raises_pure _
  | toJsonString value pretty => exact raises_pure _
  | jsonQuery input path => exact raises_runLookup config input path _
  | jsonQueryArray input path => exact raises_runLookup config input path _
  | jsonValue input path => exact raises_runLookup config input path _
  | jsonValueArray input path => exact raises_runLookup config input path _
  | jsonSet json edits create => exact raises_runEdits _ edits config json
  | jsonRemove json paths => exact raises_runEdits _ _ config json
  | jsonArrayAppend json edits eachElement => exact raises_runEdits _ edits config json
  | jsonArrayInsert json edits eachElement => exact raises_runEdits _ edits config json
  | jsonType json => exact raises_pure _
  | jsonArray values => exact raises_pure _
  | jsonObject members => exact raises_pure _
  | jsonStripNulls json path arrays removeEmpty => exact raises_runStripNulls config json path _
  | extract extractor json mode =>
    obtain ⟨lax, array, target⟩ := extractor
    cases json with
    | none => exact raises_pure SqlValue.null
    | some json =>
      cases lax with
      | true => cases array <;> exact raises_pure _
      | false =>
        cases array with
        | true => exact raises_liftM (json.raises_strictArray target mode)
        | false => exact raises_liftM (json.raises_strict target mode)

/-- **The errors of calls** are meant for their callers. -/
theorem raises_call (name : String) (args : List Argument) :
    Raises (Engine.call config name args) Error.Ordinary :=
  raises_bind (raises_liftM (Call.raises_parse args name)) (raises_run config)

end SqlJson
