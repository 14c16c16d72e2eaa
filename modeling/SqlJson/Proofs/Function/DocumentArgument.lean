import SqlJson.Proofs.Except
import SqlJson.Proofs.Function.Names

/-!
# The document argument

A call with paths has its document first. Whether the other arguments are understood, and as what, does not
depend on the document: any document that the function accepts can stand in its place.

* `Call.TakesPaths`, `Call.Accepts`: calls with paths, and the documents they accept.
* `Call.Variants`: what a parser of arguments makes of other documents.
* `Call.variants_parse`: a name and arguments, with other documents.
-/

namespace SqlJson

open SqlJson.Except

namespace Arguments

/-- Arguments with one more in front of them, by position. -/
def putFirst (v : SqlValue) (args : Arguments) : Arguments := { args with positional := v :: args.positional }

variable {allowed : List String} {function : String} {v : SqlValue} {list : List Argument} {args sorted : Arguments}

theorem add_putFirst (v : SqlValue) (args : Arguments) (arg : Argument) :
    (args.putFirst v).add allowed arg = (args.add allowed arg).map (putFirst v) := by
  unfold add
  split
  · by_cases hnamed : args.named.isEmpty <;> simp [putFirst, hnamed, Except.map]
  · dsimp only
    split_ifs <;> simp_all [putFirst, Except.map]

theorem foldlM_putFirst (v : SqlValue) (list : List Argument) (args : Arguments) :
    list.foldlM (add allowed) (args.putFirst v) = (list.foldlM (add allowed) args).map (putFirst v) := by
  induction list generalizing args with
  | nil => rfl
  | cons arg rest ih =>
    rw [List.foldlM_cons, List.foldlM_cons, add_putFirst]
    cases args.add allowed arg with
    | error e => rfl
    | ok next => exact ih next

/-- **The first argument stays the first** of those by position, and does not change what becomes of the
others. -/
theorem ofList_cons :
    ofList function allowed (⟨none, v⟩ :: list) = (ofList function allowed list).map (putFirst v) :=
  foldlM_putFirst v list _

/-- After a named argument there is none by position. -/
theorem positional_eq_nil {name : String} (h : ofList function allowed (⟨some name, v⟩ :: list) = .ok sorted) :
    sorted.positional = [] := by
  rw [ofList, List.foldlM_cons] at h
  obtain ⟨first, hfirst, hrest⟩ := bind_eq_ok_iff.1 h
  have hnamed : first.named ≠ [] ∧ first.positional = [] := by
    unfold add at hfirst
    dsimp only at hfirst
    split_ifs at hfirst
    cases hfirst
    exact ⟨by simp, rfl⟩
  refine (ensures_foldlM (R := fun a => a.named ≠ [] ∧ a.positional = []) ?_ hnamed _ hrest).2
  rintro arg - args ⟨hargs, hpositional⟩
  unfold add
  split
  · rw [if_neg (by rwa [List.isEmpty_iff])]
    exact ensures_error _
  · dsimp only
    split_ifs
    · exact ensures_error _
    · exact ensures_error _
    · exact ensures_ok ⟨by simp, hpositional⟩

/-- **A call that wants an argument by position has one in front.** -/
theorem exists_first {lo : ℕ} {hi : Option ℕ} (h : ofList function allowed list = .ok sorted)
    (hcount : sorted.expectCount (lo + 1) hi = .ok ()) :
    ∃ v rest others, list = ⟨none, v⟩ :: rest ∧ ofList function allowed rest = .ok others ∧
      sorted = others.putFirst v := by
  have hne : sorted.positional ≠ [] := by
    intro hnil
    simp [expectCount, hnil] at hcount
  cases list with
  | nil =>
    cases h
    exact absurd rfl hne
  | cons arg rest =>
    obtain ⟨name, v⟩ := arg
    cases name with
    | some name => exact absurd (positional_eq_nil h) hne
    | none =>
      rw [ofList_cons] at h
      cases hothers : ofList function allowed rest with
      | error e =>
        rw [hothers] at h
        cases h
      | ok others =>
        rw [hothers] at h
        cases h
        exact ⟨v, rest, others, rfl, hothers, rfl⟩

end Arguments

namespace Call

open Arguments

/-- The functions that look for something in a document, or change it there. -/
def TakesPaths : Call → Prop
  | jsonQuery .. | jsonQueryArray .. | jsonValue .. | jsonValueArray .. | jsonStripNulls .. => True
  | jsonSet .. | jsonRemove .. | jsonArrayAppend .. | jsonArrayInsert .. => True
  | _ => False

/-- **The documents that a function accepts**: JSON and `NULL`, and text if it only looks for something. -/
def Accepts : Call → SqlValue → Prop
  | jsonQuery .., v | jsonQueryArray .., v | jsonValue .., v | jsonValueArray .., v =>
    v = .null ∨ (∃ json, v = .json json) ∨ ∃ text, v = .varchar text
  | _, v => v = .null ∨ ∃ json, v = .json json

/-- The same call on `NULL` in place of the document. -/
def onNull : Call → Call
  | jsonQuery _ path => jsonQuery .null path
  | jsonQueryArray _ path => jsonQueryArray .null path
  | jsonValue _ path => jsonValue .null path
  | jsonValueArray _ path => jsonValueArray .null path
  | jsonStripNulls _ path arrays removeEmpty => jsonStripNulls none path arrays removeEmpty
  | jsonSet _ edits create => jsonSet none edits create
  | jsonRemove _ paths => jsonRemove none paths
  | jsonArrayAppend _ edits eachElement => jsonArrayAppend none edits eachElement
  | jsonArrayInsert _ edits eachElement => jsonArrayInsert none edits eachElement
  | call => call

theorem takesPaths_onNull (call : Call) : call.onNull.TakesPaths ↔ call.TakesPaths := by
  cases call <;> rfl

/-- **Other documents in a call.** The document stands first, and with another one in its place the parser
makes the same call on that document, if the function accepts it, and none if not. -/
def Variants (parser : List Argument → Except Error Call) (list : List Argument) (call : Call) : Prop :=
  ∃ document rest, list = ⟨none, document⟩ :: rest ∧ ∀ other,
    (call.Accepts other ∧
      ∃ call', parser (⟨none, other⟩ :: rest) = .ok call' ∧ call'.onNull = call.onNull) ∨
      (¬ call.Accepts other ∧ ∃ e, parser (⟨none, other⟩ :: rest) = .error e)

variable {parser : List Argument → Except Error Call} {list rest : List Argument} {document : SqlValue}
  {call : Call}

/-- A parser that makes calls of documents that may be text. -/
theorem variants_input (function : String) (make : Input → Call)
    (hlist : list = ⟨none, document⟩ :: rest) (hmake : ∀ input, (make input).onNull = call.onNull)
    (haccepts : ∀ v, call.Accepts v ↔ v = .null ∨ (∃ json, v = .json json) ∨ ∃ text, v = .varchar text)
    (h : ∀ v, parser (⟨none, v⟩ :: rest) = (Input.ofArguments ⟨function, [v], []⟩ 0).map make) :
    Variants parser list call := by
  refine ⟨document, rest, hlist, fun other => ?_⟩
  rw [haccepts, h]
  cases other with
  | null => exact .inl ⟨.inl rfl, _, rfl, hmake _⟩
  | json json => exact .inl ⟨.inr (.inl ⟨json, rfl⟩), _, rfl, hmake _⟩
  | varchar text => exact .inl ⟨.inr (.inr ⟨text, rfl⟩), _, rfl, hmake _⟩
  | _ => exact .inr ⟨by simp, _, rfl⟩

/-- A parser that makes calls of JSON documents. -/
theorem variants_json (function : String) (make : Option Json → Call)
    (hlist : list = ⟨none, document⟩ :: rest) (hmake : ∀ json, (make json).onNull = call.onNull)
    (haccepts : ∀ v, call.Accepts v ↔ v = .null ∨ ∃ json, v = .json json)
    (h : ∀ v, parser (⟨none, v⟩ :: rest) = (json? ⟨function, [v], []⟩ 0).map make) :
    Variants parser list call := by
  refine ⟨document, rest, hlist, fun other => ?_⟩
  rw [haccepts, h]
  cases other with
  | null => exact .inl ⟨.inl rfl, _, rfl, hmake _⟩
  | json json => exact .inl ⟨.inr ⟨json, rfl⟩, _, rfl, hmake _⟩
  | _ => exact .inr ⟨by simp, _, rfl⟩

theorem variants_parseQuery (h : parseQuery list = .ok call) : Variants parseQuery list call := by
  obtain ⟨sorted, hsorted, h⟩ := bind_eq_ok_iff.1 h
  obtain ⟨_, hcount, h⟩ := bind_eq_ok_iff.1 h
  obtain ⟨input, -, h⟩ := bind_eq_ok_iff.1 h
  obtain ⟨path, hpath, h⟩ := bind_eq_ok_iff.1 h
  cases h
  obtain ⟨v, rest, others, rfl, hothers, rfl⟩ := exists_first hsorted hcount
  refine variants_input others.function (jsonQuery · path) rfl (fun _ => rfl)
    (fun _ => Iff.rfl) fun other => ?_
  have hcount' : (others.putFirst other).expectCount 2 (some 2) = .ok () := hcount
  have hpath' : (others.putFirst other).text? 1 = .ok path := hpath
  rw [parseQuery, ofList_cons, hothers]
  simp only [Except.map, bind, Except.bind, hcount', hpath']
  cases other <;> rfl

theorem variants_parseLookup {name : String} {make : Input → Option String → Call}
    (hmake : ∀ input input' path, (make input path).onNull = (make input' path).onNull)
    (haccepts : ∀ input path v,
      (make input path).Accepts v ↔ v = .null ∨ (∃ json, v = .json json) ∨ ∃ text, v = .varchar text)
    (h : parseLookup name make list = .ok call) : Variants (parseLookup name make) list call := by
  obtain ⟨sorted, hsorted, h⟩ := bind_eq_ok_iff.1 h
  obtain ⟨_, hcount, h⟩ := bind_eq_ok_iff.1 h
  obtain ⟨input, -, h⟩ := bind_eq_ok_iff.1 h
  obtain ⟨path, hpath, h⟩ := bind_eq_ok_iff.1 h
  cases h
  obtain ⟨v, rest, others, rfl, hothers, rfl⟩ := exists_first hsorted hcount
  refine variants_input others.function (make · path) rfl
    (fun input' => hmake input' input path) (haccepts input path) fun other => ?_
  have hcount' : (others.putFirst other).expectCount 1 (some 2) = .ok () := hcount
  have hpath' : (others.putFirst other).pathOrRoot? 1 = .ok path := hpath
  rw [parseLookup, ofList_cons, hothers]
  simp only [Except.map, bind, Except.bind, hcount', hpath']
  cases other <;> rfl

theorem variants_parseEdits {name flag : String} {make : Option Json → List PathValue → Bool → Call}
    (hmake : ∀ json json' edits value, (make json edits value).onNull = (make json' edits value).onNull)
    (haccepts : ∀ json edits value v, (make json edits value).Accepts v ↔ v = .null ∨ ∃ json, v = .json json)
    (h : parseEdits name flag make list = .ok call) : Variants (parseEdits name flag make) list call := by
  obtain ⟨sorted, hsorted, h⟩ := bind_eq_ok_iff.1 h
  obtain ⟨_, hcount, h⟩ := bind_eq_ok_iff.1 h
  obtain ⟨json, -, h⟩ := bind_eq_ok_iff.1 h
  obtain ⟨edits, hedits, h⟩ := bind_eq_ok_iff.1 h
  obtain ⟨value, hvalue, h⟩ := bind_eq_ok_iff.1 h
  cases h
  obtain ⟨v, rest, others, rfl, hothers, rfl⟩ := exists_first hsorted hcount
  refine variants_json others.function (make · edits value) rfl
    (fun json' => hmake json' json edits value) (haccepts json edits value) fun other => ?_
  have hcount' : (others.putFirst other).expectCount 3 none = .ok () := hcount
  have hedits' : pathValues (others.putFirst other).function (others.putFirst other).positional.tail = .ok edits :=
    hedits
  have hvalue' : (others.putFirst other).flag flag true = .ok value := hvalue
  rw [parseEdits, ofList_cons, hothers]
  simp only [Except.map, bind, Except.bind, hcount', hedits', hvalue']
  cases other <;> rfl

theorem variants_parseRemove (h : parseRemove list = .ok call) : Variants parseRemove list call := by
  obtain ⟨sorted, hsorted, h⟩ := bind_eq_ok_iff.1 h
  obtain ⟨_, hcount, h⟩ := bind_eq_ok_iff.1 h
  obtain ⟨paths, hpaths, h⟩ := bind_eq_ok_iff.1 h
  obtain ⟨json, -, h⟩ := bind_eq_ok_iff.1 h
  cases h
  obtain ⟨v, rest, others, rfl, hothers, rfl⟩ := exists_first hsorted hcount
  refine variants_json others.function (jsonRemove · paths) rfl (fun _ => rfl)
    (fun _ => Iff.rfl) fun other => ?_
  have hcount' : (others.putFirst other).expectCount 2 none = .ok () := hcount
  have hpaths' : (others.putFirst other).positional.tail.mapM (textOf? (others.putFirst other).function) =
      .ok paths := hpaths
  rw [parseRemove, ofList_cons, hothers]
  simp only [Except.map, bind, Except.bind, hcount', hpaths']
  cases other <;> rfl

theorem variants_parseStripNulls (h : parseStripNulls list = .ok call) :
    Variants parseStripNulls list call := by
  obtain ⟨sorted, hsorted, h⟩ := bind_eq_ok_iff.1 h
  obtain ⟨_, hcount, h⟩ := bind_eq_ok_iff.1 h
  obtain ⟨json, -, h⟩ := bind_eq_ok_iff.1 h
  obtain ⟨path, hpath, h⟩ := bind_eq_ok_iff.1 h
  obtain ⟨arrays, harrays, h⟩ := bind_eq_ok_iff.1 h
  obtain ⟨removeEmpty, hremove, h⟩ := bind_eq_ok_iff.1 h
  cases h
  obtain ⟨v, rest, others, rfl, hothers, rfl⟩ := exists_first hsorted hcount
  refine variants_json others.function (jsonStripNulls · path arrays removeEmpty) rfl
    (fun _ => rfl) (fun _ => Iff.rfl) fun other => ?_
  have hcount' : (others.putFirst other).expectCount 1 (some 2) = .ok () := hcount
  have hpath' : (others.putFirst other).pathOrRoot? 1 = .ok path := hpath
  have harrays' : (others.putFirst other).flag "include_arrays" true = .ok arrays := harrays
  have hremove' : (others.putFirst other).flag "remove_empty" false = .ok removeEmpty := hremove
  rw [parseStripNulls, ofList_cons, hothers]
  simp only [Except.map, bind, Except.bind, hcount', hpath', harrays', hremove']
  cases other <;> rfl

/-! ## Calls without paths -/

theorem not_takesPaths_parseParseJson : Ensures (parseParseJson list) fun call => ¬ call.TakesPaths :=
  ensures_bind fun _ => ensures_bind fun _ => ensures_bind fun _ => ensures_bind fun _ => ensures_ok id

theorem not_takesPaths_parseToJson : Ensures (parseToJson list) fun call => ¬ call.TakesPaths :=
  ensures_bind fun _ => ensures_bind fun _ => ensures_bind fun _ => ensures_ok id

theorem not_takesPaths_parseToJsonString : Ensures (parseToJsonString list) fun call => ¬ call.TakesPaths :=
  ensures_bind fun _ => ensures_bind fun _ => ensures_bind fun _ => ensures_ok id

theorem not_takesPaths_parseType : Ensures (parseType list) fun call => ¬ call.TakesPaths :=
  ensures_bind fun _ => ensures_bind fun _ => ensures_bind fun _ => ensures_ok id

theorem not_takesPaths_parseArray : Ensures (parseArray list) fun call => ¬ call.TakesPaths :=
  ensures_bind fun _ => ensures_ok id

theorem not_takesPaths_parseObject : Ensures (parseObject list) fun call => ¬ call.TakesPaths := by
  refine ensures_bind fun args => ?_
  split_ifs
  · exact ensures_bind fun _ => ensures_ok id
  · exact ensures_error _

theorem not_takesPaths_parseExtract (extractor : Extractor) :
    Ensures (parseExtract extractor list) fun call => ¬ call.TakesPaths :=
  ensures_bind fun _ => ensures_bind fun _ => ensures_bind fun _ => ensures_bind fun _ => ensures_ok id

/-- **A name and arguments with other documents.** -/
theorem variants_parse {name : String} (h : parse name list = .ok call) (hpaths : call.TakesPaths) :
    Variants (parse name) list call := by
  obtain ⟨parser, hnames, hparse⟩ | hunknown := parse_cases name list
  · rw [parse_of_names hnames]
    rw [hparse] at h
    cases hnames with
    | query => exact variants_parseQuery h
    | queryArray | value | valueArray => exact variants_parseLookup (fun _ _ _ => rfl) (fun _ _ _ => Iff.rfl) h
    | set | arrayAppend | arrayInsert => exact variants_parseEdits (fun _ _ _ _ => rfl) (fun _ _ _ _ => Iff.rfl) h
    | remove => exact variants_parseRemove h
    | stripNulls => exact variants_parseStripNulls h
    -- the other functions take no paths
    | parseJson => exact absurd hpaths (not_takesPaths_parseParseJson call h)
    | toJson => exact absurd hpaths (not_takesPaths_parseToJson call h)
    | toJsonString => exact absurd hpaths (not_takesPaths_parseToJsonString call h)
    | type => exact absurd hpaths (not_takesPaths_parseType call h)
    | array => exact absurd hpaths (not_takesPaths_parseArray call h)
    | object => exact absurd hpaths (not_takesPaths_parseObject call h)
    | extract => exact absurd hpaths (not_takesPaths_parseExtract _ call h)
  · rw [hunknown] at h
    cases h

end Call

end SqlJson
