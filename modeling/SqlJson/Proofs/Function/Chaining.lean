import SqlJson.Proofs.Function.Conversion
import SqlJson.Proofs.Function.DocumentArgument
import SqlJson.Proofs.Function.Failures

/-!
# Calls with many edits

A call that edits a document first compiles all of its paths and validates all of its edits, and then makes
them one after another. Calls with a few of the edits each, one on the result of the other, come to the same,
because edits that were validated never fail: nothing that happens to the document can come between the
compiling of two paths.

* `runEdits_append`: a run with the edits of two lists is a run with the first and then one with the second.
* `Splits`: a parser that understands the edits of a call part by part (`splits_parseEdits`,
  `splits_parseRemove`).
* `call_editArguments_append`: one call with many edits is a chain of calls.
-/

namespace SqlJson

open SqlJson.Except

/-! ## Running edits -/

namespace Action

variable {α β : Type} {x : Action α} {f g : α → Action β} {P : α → Prop}

theorem ext_run {y : Action α} (h : ∀ cache, x.run.run cache = y.run.run cache) : x = y :=
  ExceptT.ext (StateT.ext h)

/-- What comes after an action counts only for the values that it can give. -/
theorem Yields.bind_congr (hx : Yields x P) (h : ∀ a, P a → f a = g a) : (x >>= f) = (x >>= g) := by
  refine ext_run fun cache => ?_
  rw [run_bind, run_bind]
  rcases hrun : x.run.run cache with ⟨result, after⟩
  cases result with
  | ok a =>
    have ha : f a = g a := h a (hx cache a after hrun)
    simp only [ha]
  | error e => rfl

end Action

theorem Edit.applyAll_append (maxPad : ℕ) (root : Json) (first second : List Edit) :
    applyAll maxPad root (first ++ second) = (do applyAll maxPad (← applyAll maxPad root first) second) :=
  List.foldlM_append

namespace SqlValue

/-- A document as an argument or the result of a call; none is `NULL`. -/
def ofDocument (document : Option Json) : SqlValue := document.elim null json

/-- The document that a call has given. -/
def document? : SqlValue → Option Json
  | json value => some value
  | _ => none

theorem document?_ofDocument (document : Option Json) : (ofDocument document).document? = document := by
  cases document <;> rfl

end SqlValue

section Runs

variable {α : Type} (config : Config) (make : Path → α → Edit) (json : Option Json)
  (first second : List (Option String × α))

theorem collectEdits_append : collectEdits make (first ++ second) = (do
    let edits ← collectEdits make first
    return edits ++ (← collectEdits make second)) := by
  induction first with
  | nil => simp [collectEdits]
  | cons request rest ih =>
    obtain ⟨text, payload⟩ := request
    rw [List.cons_append, collectEdits, collectEdits, bind_assoc]
    congr 1
    funext path
    cases path with
    | none => exact ih
    | some path => simp [ih]

/-- **A run with the edits of two lists** is a run with the first and then one with the second. -/
theorem runEdits_append : runEdits config make json (first ++ second) = (do
    let value ← runEdits config make json first
    runEdits config make value.document? second) := by
  cases json with
  | none => simp [runEdits, collectEdits_append, SqlValue.document?]
  | some root =>
    simp only [runEdits, collectEdits_append, bind_assoc, pure_bind]
    refine (Action.yields_collectEdits make first).bind_congr fun edits hedits => ?_
    -- the first edits succeed, so that nothing is lost if they are made before the others are compiled
    obtain ⟨between, hbetween⟩ := Edit.exists_applyAll hedits config.maxArrayPad root
    have hall : ∀ more, Edit.applyAll config.maxArrayPad root (edits ++ more) =
        Edit.applyAll config.maxArrayPad between more := by
      intro more
      rw [Edit.applyAll_append, hbetween]
      rfl
    simp only [hall, hbetween]
    rfl

/-- What edits give is a document or `NULL`. -/
theorem yields_ofDocument_runEdits :
    Action.Yields (runEdits config make json first) fun value => ∃ document, value = .ofDocument document := by
  refine Action.yields_bind fun edits => ?_
  cases json with
  | none => exact Action.yields_pure ⟨none, rfl⟩
  | some root => exact Action.yields_bind fun edited => Action.yields_pure ⟨some edited, rfl⟩

end Runs

/-! ## Understanding edits -/

namespace Arguments

variable {function : String} {allowed : List String} {flags : List Argument} {args : Arguments} {i : ℕ}
  {json : Option Json}

/-- **Arguments by position, and then flags**, are sorted into the two. -/
theorem ofList_map (hflags : ∀ flag ∈ flags, flag.name ≠ none) (values : List SqlValue) :
    ofList function allowed (values.map (⟨none, ·⟩) ++ flags) =
      (ofList function allowed flags).map fun sorted => { sorted with positional := values } := by
  induction values with
  | nil =>
    cases hsorted : ofList function allowed flags with
    | error e => rw [List.map_nil, List.nil_append, hsorted, Except.map]
    | ok sorted =>
      -- flags alone leave no arguments by position
      have hnil : sorted.positional = [] := by
        cases flags with
        | nil =>
          cases hsorted
          rfl
        | cons flag rest =>
          obtain ⟨name, value⟩ := flag
          obtain ⟨text, rfl⟩ := Option.ne_none_iff_exists'.1 (hflags _ List.mem_cons_self)
          exact positional_eq_nil hsorted
      rw [List.map_nil, List.nil_append, hsorted, Except.map, ← hnil]
  | cons value rest ih =>
    rw [List.map_cons, List.cons_append, ofList_cons, ih]
    cases ofList function allowed flags <;> rfl

theorem ofList_map_eq_ok_iff (hflags : ∀ flag ∈ flags, flag.name ≠ none) (values : List SqlValue) :
    ofList function allowed (values.map (⟨none, ·⟩) ++ flags) = .ok args ↔
      ∃ sorted, ofList function allowed flags = .ok sorted ∧ args = { sorted with positional := values } := by
  rw [ofList_map hflags]
  cases ofList function allowed flags <;> simp [Except.map, eq_comm]

theorem json?_eq_ok_iff : args.json? i = .ok json ↔ args.get i = .ofDocument json := by
  unfold json? SqlValue.ofDocument
  cases args.get i <;> cases json <;> simp

theorem expectCount_eq_ok_iff {lo : ℕ} : args.expectCount lo none = .ok () ↔ lo ≤ args.positional.length := by
  simp [expectCount]

end Arguments

namespace Call

open Arguments

/-- **The arguments of a call that edits a document**: the document, what is to be done to it, and flags. -/
def editArguments (document : SqlValue) (edits : List SqlValue) (flags : List Argument) : List Argument :=
  (document :: edits).map (⟨none, ·⟩) ++ flags

/-- **A parser that understands the edits of a call part by part**: where it makes a call of two parts
together, it makes one of each, and the document is of no account to the edits. -/
def Splits {δ : Type} (parser : List Argument → Except Error Call) (make : Option Json → List δ → Call)
    (document : SqlValue) (first second : List SqlValue) (flags : List Argument) : Prop :=
  ∃ json edits more,
    parser (editArguments document (first ++ second) flags) = .ok (make json (edits ++ more)) ∧
    parser (editArguments document first flags) = .ok (make json edits) ∧
    ∀ json', parser (editArguments (.ofDocument json') second flags) = .ok (make json' more)

variable {name flag : String} {mk : Option Json → List PathValue → Bool → Call} {call : Call}
  {document : SqlValue} {first second edits : List SqlValue} {flags : List Argument}

theorem pairs_append (function : String) (first second : List SqlValue) (heven : 2 ∣ first.length) :
    pathValues.pairs function (first ++ second) = (do
      let pairs ← pathValues.pairs function first
      return pairs ++ (← pathValues.pairs function second)) := by
  fun_induction pathValues.pairs function first with
  | case1 path value rest ih =>
    have hrest : 2 ∣ rest.length := by
      rw [List.length_cons, List.length_cons] at heven
      omega
    simp [pathValues.pairs, ih hrest]
  | case2 values hshort =>
    match values with
    | [] =>
      rw [List.nil_append]
      cases pathValues.pairs function second <;> rfl
    | [_] => simp at heven
    | path :: value :: rest => exact (hshort path value rest rfl).elim

theorem pathValues_eq_ok_iff {function : String} {pairs : List PathValue} :
    pathValues function edits = .ok pairs ↔
      edits ≠ [] ∧ 2 ∣ edits.length ∧ pathValues.pairs function edits = .ok pairs := by
  cases edits with
  | nil => simp [pathValues]
  | cons value rest =>
    have hvalues : pathValues function (value :: rest) =
        if (value :: rest).length % 2 = 0 then pathValues.pairs function (value :: rest)
        else .error (.wrongArgumentCount function) := rfl
    rw [hvalues, Nat.dvd_iff_mod_eq_zero]
    by_cases heven : (value :: rest).length % 2 = 0
    · simp only [heven, ne_eq, reduceCtorEq, not_false_eq_true, true_and, if_true]
    · simp only [heven, reduceCtorEq, false_and, and_false, if_false]

/-- What is made of pairs of a path and a value, and a flag. -/
theorem parseEdits_eq_ok_iff (hflags : ∀ flag ∈ flags, flag.name ≠ none) :
    parseEdits name flag mk (editArguments document edits flags) = .ok call ↔
      ∃ sorted json pairs value, ofList name [flag] flags = .ok sorted ∧ 2 ≤ edits.length ∧
        document = .ofDocument json ∧ pathValues sorted.function edits = .ok pairs ∧
        sorted.flag flag true = .ok value ∧ call = mk json pairs value := by
  rw [parseEdits, bind_eq_ok_iff]
  simp only [bind_eq_ok_iff]
  constructor
  · rintro ⟨args, hargs, _, hcount, json, hjson, pairs, hpairs, value, hvalue, hcall⟩
    obtain ⟨sorted, hsorted, rfl⟩ := (ofList_map_eq_ok_iff hflags _).1 hargs
    have hlength := expectCount_eq_ok_iff.1 hcount
    rw [List.length_cons] at hlength
    cases hcall
    exact ⟨sorted, json, pairs, value, hsorted, by omega, json?_eq_ok_iff.1 hjson, hpairs, hvalue, rfl⟩
  · rintro ⟨sorted, json, pairs, value, hsorted, hlength, hdocument, hpairs, hvalue, rfl⟩
    refine ⟨_, (ofList_map_eq_ok_iff hflags _).2 ⟨sorted, hsorted, rfl⟩, (), ?_, json, ?_, pairs, hpairs, value,
      hvalue, rfl⟩
    · rw [expectCount_eq_ok_iff, List.length_cons]
      omega
    · exact json?_eq_ok_iff.2 hdocument

/-- What is made of paths. -/
theorem parseRemove_eq_ok_iff (hflags : ∀ flag ∈ flags, flag.name ≠ none) :
    parseRemove (editArguments document edits flags) = .ok call ↔
      ∃ sorted json paths, ofList "json_remove" [] flags = .ok sorted ∧ 1 ≤ edits.length ∧
        document = .ofDocument json ∧ edits.mapM (textOf? sorted.function) = .ok paths ∧
        call = jsonRemove json paths := by
  rw [parseRemove, bind_eq_ok_iff]
  simp only [bind_eq_ok_iff]
  constructor
  · rintro ⟨args, hargs, _, hcount, paths, hpaths, json, hjson, hcall⟩
    obtain ⟨sorted, hsorted, rfl⟩ := (ofList_map_eq_ok_iff hflags _).1 hargs
    have hlength := expectCount_eq_ok_iff.1 hcount
    rw [List.length_cons] at hlength
    cases hcall
    exact ⟨sorted, json, paths, hsorted, by omega, json?_eq_ok_iff.1 hjson, hpaths, rfl⟩
  · rintro ⟨sorted, json, paths, hsorted, hlength, hdocument, hpaths, rfl⟩
    refine ⟨_, (ofList_map_eq_ok_iff hflags _).2 ⟨sorted, hsorted, rfl⟩, (), ?_, paths, hpaths, json, ?_, rfl⟩
    · rw [expectCount_eq_ok_iff, List.length_cons]
      omega
    · exact json?_eq_ok_iff.2 hdocument

theorem splits_parseEdits (hflags : ∀ flag ∈ flags, flag.name ≠ none) (hfirst : first ≠ []) (hsecond : second ≠ [])
    (heven : 2 ∣ first.length)
    (h : parseEdits name flag mk (editArguments document (first ++ second) flags) = .ok call) :
    ∃ value, Splits (parseEdits name flag mk) (mk · · value) document first second flags := by
  have hwhole := h
  obtain ⟨sorted, json, all, value, hsorted, -, rfl, hall, hvalue, rfl⟩ := (parseEdits_eq_ok_iff hflags).1 h
  obtain ⟨-, hlength, hboth⟩ := pathValues_eq_ok_iff.1 hall
  rw [pairs_append _ _ _ heven] at hboth
  obtain ⟨pairs, hpairs, hrest⟩ := bind_eq_ok_iff.1 hboth
  obtain ⟨more, hmore, heq⟩ := bind_eq_ok_iff.1 hrest
  cases heq
  have hlengthFirst := List.length_pos_of_ne_nil hfirst
  have hlengthSecond := List.length_pos_of_ne_nil hsecond
  rw [List.length_append] at hlength
  refine ⟨value, json, pairs, more, hwhole, ?_, fun json' => ?_⟩
  · exact (parseEdits_eq_ok_iff hflags).2 ⟨sorted, json, pairs, value, hsorted, by omega, rfl,
      pathValues_eq_ok_iff.2 ⟨hfirst, heven, hpairs⟩, hvalue, rfl⟩
  · exact (parseEdits_eq_ok_iff hflags).2 ⟨sorted, json', more, value, hsorted, by omega, rfl,
      pathValues_eq_ok_iff.2 ⟨hsecond, by omega, hmore⟩, hvalue, rfl⟩

theorem splits_parseRemove (hflags : ∀ flag ∈ flags, flag.name ≠ none) (hfirst : first ≠ []) (hsecond : second ≠ [])
    (h : parseRemove (editArguments document (first ++ second) flags) = .ok call) :
    Splits parseRemove jsonRemove document first second flags := by
  have hwhole := h
  obtain ⟨sorted, json, all, hsorted, -, rfl, hall, rfl⟩ := (parseRemove_eq_ok_iff hflags).1 h
  rw [List.mapM_append] at hall
  obtain ⟨paths, hpaths, hrest⟩ := bind_eq_ok_iff.1 hall
  obtain ⟨more, hmore, heq⟩ := bind_eq_ok_iff.1 hrest
  cases heq
  refine ⟨json, paths, more, hwhole, ?_, fun json' => ?_⟩
  · exact (parseRemove_eq_ok_iff hflags).2
      ⟨sorted, json, paths, hsorted, List.length_pos_of_ne_nil hfirst, rfl, hpaths, rfl⟩
  · exact (parseRemove_eq_ok_iff hflags).2
      ⟨sorted, json', more, hsorted, List.length_pos_of_ne_nil hsecond, rfl, hmore, rfl⟩

end Call

/-! ## Chains of calls -/

namespace Engine

open Call

variable {config : Config} {name : String} {document : SqlValue} {first second : List SqlValue}
  {flags : List Argument}

/-- A parser that understands edits part by part makes calls that can be chained. -/
theorem call_append_of_splits {α δ : Type} {makeCall : Option Json → List δ → Call} {make : Path → α → Edit}
    {request : δ → Option String × α} (h : Splits (Call.parse name) makeCall document first second flags)
    (hrun : ∀ json edits, (makeCall json edits).run config = runEdits config make json (edits.map request)) :
    call config name (editArguments document (first ++ second) flags) = (do
      let value ← call config name (editArguments document first flags)
      call config name (editArguments value second flags)) := by
  obtain ⟨json, edits, more, hwhole, hfirst, hsecond⟩ := h
  rw [call_of_parse hwhole, call_of_parse hfirst, hrun, hrun, List.map_append, runEdits_append]
  -- the second call is understood whatever document the first one gives
  refine (yields_ofDocument_runEdits config make json _).bind_congr ?_
  rintro _ ⟨between, rfl⟩
  rw [call_of_parse (hsecond between), hrun, SqlValue.document?_ofDocument]

/-- The functions that take pairs of a path and a value. -/
theorem call_append_of_parseEdits {function flag : String} {mk : Option Json → List PathValue → Bool → Call}
    {make : Bool → Path → SqlValue → Edit} {whole : Call} (hparser : Call.parse name = parseEdits function flag mk)
    (hrun : ∀ json edits value, (mk json edits value).run config = runEdits config (make value) json edits)
    (hflags : ∀ flag ∈ flags, flag.name ≠ none) (hfirst : first ≠ []) (hsecond : second ≠ [])
    (heven : 2 ∣ first.length)
    (hparse : Call.parse name (editArguments document (first ++ second) flags) = .ok whole) :
    call config name (editArguments document (first ++ second) flags) = (do
      let value ← call config name (editArguments document first flags)
      call config name (editArguments value second flags)) := by
  rw [hparser] at hparse
  obtain ⟨value, hsplits⟩ := splits_parseEdits hflags hfirst hsecond heven hparse
  rw [← hparser] at hsplits
  have hrun' : ∀ json edits, (mk json edits value).run config = runEdits config (make value) json (edits.map id) := by
    intro json edits
    rw [List.map_id]
    exact hrun json edits value
  exact call_append_of_splits hsplits hrun'

/-- The functions that edit a document. -/
def editFunctions : List String := ["json_set", "json_remove", "json_array_append", "json_array_insert"]

/-- How many arguments an edit has: a path, and a value but for a removal. -/
def editSize (name : String) : ℕ := if Text.asciiLower name = "json_remove" then 1 else 2

/-- **One call with many edits is a chain of calls.** Where the edits of a call are split between two of them,
the call gives what the second part gives on the result of the first, value or error, and leaves the same
cache; an error of the first part is final. -/
theorem call_editArguments_append (hname : Text.asciiLower name ∈ editFunctions)
    (hflags : ∀ flag ∈ flags, flag.name ≠ none) (hfirst : first ≠ []) (hsecond : second ≠ [])
    (hsplit : editSize name ∣ first.length) {whole : Call}
    (hparse : Call.parse name (editArguments document (first ++ second) flags) = .ok whole) :
    call config name (editArguments document (first ++ second) flags) = (do
      let value ← call config name (editArguments document first flags)
      call config name (editArguments value second flags)) := by
  simp only [editFunctions, List.mem_cons, List.not_mem_nil, or_false] at hname
  rcases hname with hset | hremove | happend | hinsert
  · have hparser : Call.parse name = parseEdits "json_set" "create_if_missing" jsonSet :=
      parse_of_names (.set hset)
    have heven : 2 ∣ first.length := by rwa [editSize, hset, if_neg (by decide)] at hsplit
    exact call_append_of_parseEdits hparser (fun _ _ _ => rfl) hflags hfirst hsecond heven hparse
  · have hparser : Call.parse name = parseRemove := parse_of_names (.remove hremove)
    rw [hparser] at hparse
    have hsplits := splits_parseRemove hflags hfirst hsecond hparse
    rw [← hparser] at hsplits
    exact call_append_of_splits hsplits fun _ _ => rfl
  · have hparser : Call.parse name = parseEdits "json_array_append" "append_each_element" jsonArrayAppend :=
      parse_of_names (.arrayAppend happend)
    have heven : 2 ∣ first.length := by rwa [editSize, happend, if_neg (by decide)] at hsplit
    exact call_append_of_parseEdits hparser (fun _ _ _ => rfl) hflags hfirst hsecond heven hparse
  · have hparser : Call.parse name = parseEdits "json_array_insert" "insert_each_element" jsonArrayInsert :=
      parse_of_names (.arrayInsert hinsert)
    have heven : 2 ∣ first.length := by rwa [editSize, hinsert, if_neg (by decide)] at hsplit
    exact call_append_of_parseEdits hparser (fun _ _ _ => rfl) hflags hfirst hsecond heven hparse

/-- A set at a path and at `NULL`, and then one at another path. -/
theorem call_editArguments_append_null :
    call .standard "JSON_SET" (editArguments (.json (.object []))
        ([.varchar "$.a", .bool true, .null, .null] ++ [.varchar "$.b[0]", .null])
        [⟨some "create_if_missing", .bool false⟩]) = (do
      let value ← call .standard "JSON_SET" (editArguments (.json (.object []))
        [.varchar "$.a", .bool true, .null, .null] [⟨some "create_if_missing", .bool false⟩])
      call .standard "JSON_SET" (editArguments value [.varchar "$.b[0]", .null]
        [⟨some "create_if_missing", .bool false⟩])) := by
  have hname : Text.asciiLower "JSON_SET" = "json_set" := Text.asciiLower_eq (by decide)
  have hflag : Text.asciiLower "create_if_missing" = "create_if_missing" := Text.asciiLower_eq (by decide)
  have hflags : ∀ flag ∈ [(⟨some "create_if_missing", .bool false⟩ : Argument)], flag.name ≠ none := by simp
  have hsplit : editSize "JSON_SET" ∣ 4 := by
    rw [editSize, hname]
    decide
  have hparse : Call.parse "JSON_SET" (editArguments (.json (.object []))
      ([.varchar "$.a", .bool true, .null, .null] ++ [.varchar "$.b[0]", .null])
      [⟨some "create_if_missing", .bool false⟩]) =
        .ok (.jsonSet (some (.object []))
          ([(some "$.a", .bool true), (none, .null)] ++ [(some "$.b[0]", .null)]) false) := by
    simp only [Call.parse, hname, parseEdits, editArguments, Arguments.ofList, List.map, List.cons_append,
      List.nil_append, List.foldlM, Arguments.add, hflag]
    rfl
  exact call_editArguments_append (by simp [hname, editFunctions]) hflags (by simp) (by simp) hsplit hparse

end Engine

end SqlJson
