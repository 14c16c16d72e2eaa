import SqlJson.Proofs.Edit.Frame
import SqlJson.Proofs.Function.Blind
import SqlJson.Proofs.Function.Conversion
import SqlJson.Proofs.Json.WellFormed
import SqlJson.Proofs.Path.Writing

/-!
# Queries of queries

What a query finds in what another query has found, one query finds by the two paths together. Where the
document is text, the first query writes what it finds and the second one reads that again: a part of a
document that was read has unique keys and stored numbers, and is nested no deeper than the whole.

* `nesting_follow_le`, `read_compact_of_follow`: parts of documents that were read.
* `Engine.query`, `Engine.run_query`: calls of `json_query`.
* `Engine.query_query`: a query of a query.
-/

namespace SqlJson

open Json

/-! ## Parts of documents -/

namespace Json

variable {d : ℕ} {root child part : Json} {step : Step} {steps : List Step} {text : String}

theorem nesting_child?_lt (h : step.child? root = some child) (hd : root.nesting ≤ d) : child.nesting < d := by
  cases root with
  | object members =>
    obtain ⟨e, rfl, hall⟩ := nesting_object_le_iff.1 hd
    cases step with
    | member key | quoted key =>
      obtain ⟨before, after, rfl, -⟩ := List.lookup_eq_some_iff.1 h
      exact Nat.lt_succ_of_le (hall (key, child) (List.mem_append_right before List.mem_cons_self))
    | index n => cases h
  | array items =>
    obtain ⟨e, rfl, hall⟩ := nesting_array_le_iff.1 hd
    cases step with
    | member key | quoted key => cases h
    | index n => exact Nat.lt_succ_of_le (hall child (List.mem_of_getElem? h))
  | _ => cases step <;> cases h

theorem nesting_follow_le (h : Path.follow steps root = some part) (hd : root.nesting ≤ d) :
    part.nesting ≤ d := by
  induction steps generalizing root with
  | nil =>
    cases h
    exact hd
  | cons step rest ih =>
    obtain ⟨child, hchild, hrest⟩ := Option.bind_eq_some_iff.1 h
    exact ih hrest (nesting_child?_lt hchild hd).le

/-- **A part of a document that was read is read again from its text**, under the same limits. -/
theorem read_compact_of_follow (hread : read ⟨none, d⟩ text = .ok root) (h : Path.follow steps root = some part) :
    read ⟨none, d⟩ part.compact = .ok part := by
  obtain ⟨hnesting, hkeys, hstored⟩ := readable_of_read hread
  have hover : root.Over fun n => ∃ literal, Number.StoredAs none literal n := ⟨hkeys, hstored⟩
  obtain ⟨hkeys', hstored'⟩ := hover.follow h
  have hn : ∀ n ∈ part.numbers, Number.StoredAs none n.text (id n) := by
    intro n hn
    obtain ⟨literal, hliteral⟩ := hstored' n hn
    exact Number.storedAs_text nofun hliteral
  have hself : part.mapNumbers id = part := mapNumbers_eq_self fun _ _ => rfl
  rw [(read_compact_and_pretty 0 (nesting_follow_le h hnesting) hkeys' hn).1, hself]

end Json

/-! ## Queries -/

/-- The argument that a document is given as. -/
def Input.toSql : Input → SqlValue
  | json value => .json value
  | text source => .varchar source
  | null => .null

variable {config : Config} {input : Input} {steps more : List Step}

/-- What steps find in the document of a query, as the query gives it. -/
def Input.find (config : Config) (input : Input) (steps : List Step) : SqlValue :=
  ((input.resolve config).bind (Path.follow steps)).elim .null input.render

/-- **Finding in what was found.** The result of the first query is the document of the second one. -/
theorem Input.find_append (config : Config) (input : Input) (steps more : List Step) :
    ∃ found : Input, input.find config steps = found.toSql ∧
      found.find config more = input.find config (steps ++ more) := by
  have happend : input.find config (steps ++ more) =
      (((input.resolve config).bind (Path.follow steps)).bind (Path.follow more)).elim .null input.render := by
    rw [find, Option.bind_assoc]
    congr 2
    funext root
    exact Edit.follow_append steps more root
  cases hpart : (input.resolve config).bind (Path.follow steps) with
  | none =>
    refine ⟨.null, by rw [find, hpart]; rfl, ?_⟩
    rw [happend, hpart]
    rfl
  | some part =>
    rw [happend, hpart, find, hpart]
    cases input with
    | json root => exact ⟨.json part, rfl, rfl⟩
    | null => cases hpart
    | text source =>
      -- the second query reads what the first one has written
      obtain ⟨root, hroot, hfollow⟩ := Option.bind_eq_some_iff.1 hpart
      have hread : read ⟨none, config.maxDepth⟩ source = .ok root := by
        rw [resolve] at hroot
        cases hsource : read (config.readOptions none) source with
        | error e =>
          rw [hsource] at hroot
          cases hroot
        | ok root' =>
          rw [hsource] at hroot
          cases hroot
          exact hsource
      refine ⟨.text part.compact, rfl, ?_⟩
      have hresolve : (Input.text part.compact).resolve config = some part := by
        rw [resolve, Config.readOptions, read_compact_of_follow hread hfollow]
        rfl
      rw [find, hresolve]
      rfl

namespace Engine

variable {cache : PathCache} {s t : String} {p q : Path}

/-- A query of a document by the text of a path. -/
def query (config : Config) (document : SqlValue) (path : String) : Action SqlValue :=
  call config "json_query" [⟨none, document⟩, ⟨none, .varchar path⟩]

theorem parse_query (input : Input) (path : String) :
    Call.parse "json_query" [⟨none, input.toSql⟩, ⟨none, .varchar path⟩] =
      .ok (.jsonQuery input (some path)) := by
  have hname : Text.asciiLower "json_query" = "json_query" := Text.asciiLower_eq (by decide)
  simp only [Call.parse, hname]
  cases input <;> rfl

/-- **A query gives what its path finds**, and leaves a sound cache. -/
theorem run_query (hcache : cache.Sound config.maxPathSteps) (hp : Path.compile config.maxPathSteps s = .ok p)
    (input : Input) : ((query config input.toSql s).run.run cache).1 = .ok (input.find config p.steps) ∧
      ((query config input.toSql s).run.run cache).2.Sound config.maxPathSteps := by
  obtain ⟨hget, hsound⟩ := PathCache.get_of_sound hcache s
  have hrun : (query config input.toSql s).run.run cache =
      (.ok (input.find config p.steps), (cache.get s).2) := by
    rw [query, call_of_parse (parse_query input s), Call.run, runLookup, Action.run_bind,
      Action.run_compileOptional (hget.trans hp)]
    refine Prod.ext (congrArg Except.ok ?_) rfl
    rw [Input.find]
    cases hroot : input.resolve config with
    | none => simp
    | some root => cases hfollow : Path.follow p.steps root <;> simp [Path.lookup, hfollow]
  rw [hrun]
  exact ⟨rfl, hsound⟩

/-- **A query of a query is one query by the joined path.** For a document of any kind, also text that is not
JSON, both give what the steps of both paths find: the same JSON, the same text, or `NULL`. -/
theorem query_query (hcache : cache.Sound config.maxPathSteps) (input : Input)
    (hp : Path.compile config.maxPathSteps s = .ok p) (hq : Path.compile config.maxPathSteps t = .ok q)
    (h : p.steps.length + q.steps.length ≤ config.maxPathSteps) :
    (((do query config (← query config input.toSql s) t : Action SqlValue)).run.run cache).1 =
        .ok (input.find config (p.steps ++ q.steps)) ∧
      ((query config input.toSql (Path.joined s t)).run.run cache).1 =
        .ok (input.find config (p.steps ++ q.steps)) := by
  constructor
  · obtain ⟨hfirst, hsound⟩ := run_query hcache hp input
    obtain ⟨found, hfound, hfind⟩ := input.find_append config p.steps q.steps
    rw [Action.run_bind]
    rcases hrun : (query config input.toSql s).run.run cache with ⟨result, after⟩
    rw [hrun] at hfirst hsound
    dsimp only at hfirst hsound ⊢
    rw [hfirst]
    dsimp only
    rw [hfound, ← hfind]
    exact (run_query hsound hq found).1
  · exact (run_query hcache (Path.compile_joined hp hq h) input).1

/-- A text with blanks and an escape, which neither query writes again. -/
theorem query_query_escape :
    (((do query .standard (← query .standard (Input.text "\x7b\"a\": [ \"\\u0041\" ]\x7d").toSql "$.a") "$[0]" :
        Action SqlValue)).run.run (newCache .standard)).1 = .ok (.varchar "\"A\"") ∧
      ((query .standard (Input.text "\x7b\"a\": [ \"\\u0041\" ]\x7d").toSql (Path.joined "$.a" "$[0]")).run.run
        (newCache .standard)).1 = .ok (.varchar "\"A\"") := by
  have hp : Path.compile Config.standard.maxPathSteps "$.a" = .ok ⟨"$.a", [.member "a"]⟩ := by
    decide +kernel
  have hq : Path.compile Config.standard.maxPathSteps "$[0]" = .ok ⟨"$[0]", [.index 0]⟩ := by
    decide +kernel
  have hfind : (Input.text "\x7b\"a\": [ \"\\u0041\" ]\x7d").find .standard ([.member "a"] ++ [.index 0]) =
      .varchar "\"A\"" := by
    have hcompact : (((Input.text "\x7b\"a\": [ \"\\u0041\" ]\x7d").resolve .standard).bind
        (Path.follow ([.member "a"] ++ [.index 0]))).map compact = some "\"A\"" := by decide +kernel
    obtain ⟨part, hpart, htext⟩ := Option.map_eq_some_iff.1 hcompact
    rw [Input.find, hpart]
    exact congrArg SqlValue.varchar htext
  have hcache := PathCache.sound_empty Config.standard.pathCacheCapacity Config.standard.maxPathSteps
  obtain ⟨hnested, hjoined⟩ := query_query hcache (.text "\x7b\"a\": [ \"\\u0041\" ]\x7d") hp hq (by decide)
  exact ⟨hnested.trans (congrArg Except.ok hfind), hjoined.trans (congrArg Except.ok hfind)⟩

end Engine

end SqlJson
