import SqlJson.Command
import SqlJson.Proofs.Expression.History

/-!
# Expressions of a command, one by one

All expressions of a command are evaluated on one engine. Since the path cache of the engine does not show,
the command prints what it would print for each of them alone, one after another.

* `lineAlone`, `outcome`: what a new engine shows for an expression, and a command for several.
* `run_eq_outcome`: a command shows what new engines show, one for each expression.
* `run_version`: a command that is asked for its version does nothing else.
* `Build.runsAlone`, `run_eq_runsAlone`: any other command is the runs for each of its expressions alone.
* `cache_invisible`: the path cache does not show in the answers of an engine, or in a command.
-/

namespace SqlJson.Command

variable {config : Config} {request : Request} {readFile : String → Option String} {args : List String}
  {input expression file : String} {build : Build} {cache : PathCache}

/-! ## Lines -/

/-- The line that a new engine shows for an expression, and whether it has a value. -/
def lineAlone (config : Config) (expression : String) : String × Bool :=
  ((Expression.runLine config expression).run (Engine.newCache config)).1

/-- **Expressions one after another** give the lines that each gives on a new engine. -/
theorem run_evaluateAll (expressions : List String) (h : cache.Sound config.maxPathSteps) :
    ((evaluateAll config expressions).run cache).1 =
      ((expressions.map (lineAlone config)).map Prod.fst, (expressions.map (lineAlone config)).all Prod.snd) := by
  induction expressions generalizing cache with
  | nil => rfl
  | cons expression rest ih =>
    have hblind : Blind config.maxPathSteps (Expression.runLine config expression) :=
      Expression.blind_runLine expression
    obtain ⟨hline, hafter⟩ := hblind.run_eq h (Engine.sound_newCache config)
    have hrest := ih hafter
    have hrun : ((evaluateAll config (expression :: rest)).run cache).1 =
        let line := ((Expression.runLine config expression).run cache).1
        let after := ((Expression.runLine config expression).run cache).2
        let lines := ((evaluateAll config rest).run after).1
        (line.1 :: lines.1, line.2 && lines.2) := rfl
    rw [hrun]
    simp only [hline, hrest]
    rfl

/-- What is left behind for lines, given whether each has a value. -/
def report (lines : List (String × Bool)) : Result :=
  ⟨if lines.all Prod.snd then 0 else 1, String.join ((lines.map Prod.fst).map (· ++ "\n"))⟩

theorem report_status (lines : List (String × Bool)) :
    (report lines).status = 1 ↔ ∃ line ∈ lines, line.2 = false := by
  unfold report
  split_ifs with h
  · constructor
    · intro h01
      cases h01
    · rintro ⟨line, hmem, hline⟩
      rw [List.all_eq_true.1 h line hmem] at hline
      cases hline
  · simpa using h

theorem report_append (lines lines' : List (String × Bool)) :
    (report (lines ++ lines')).output = (report lines).output ++ (report lines').output := by
  simp only [report, List.map_append, String.join_append]

/-! ## Commands -/

/-- The settings that a request names. -/
def settings? (readFile : String → Option String) (request : Request) : Option Config :=
  match request.configFile with
  | none => some Config.standard
  | some file => (readFile file).bind fun text => (Config.ofToml text).toOption

/-- **What is left behind** for expressions evaluated each on a new engine, under the settings of a
request. -/
def outcome (readFile : String → Option String) (request : Request) (expressions : List String) : Result :=
  match settings? readFile request with
  | none => ⟨2, ""⟩
  | some config => report (expressions.map (lineAlone config))

/-- The expressions to evaluate: those of the arguments, or those of the input. -/
def Request.toEvaluate (request : Request) (input : String) : List String :=
  if request.expressions.isEmpty then inputExpressions input else request.expressions

/-- **A command shows what new engines show**, one for each of its expressions. -/
theorem run_eq_outcome (h : parse args = some (.evaluation request)) :
    build.run readFile args input = outcome readFile request (request.toEvaluate input) := by
  have hrun : build.run readFile args input =
      match settings? readFile request with
      | none => ⟨2, ""⟩
      | some config =>
        let result := ((evaluateAll config (request.toEvaluate input)).run (Engine.newCache config)).1
        ⟨if result.2 then 0 else 1, String.join (result.1.map (· ++ "\n"))⟩ := by
    simp only [Build.run, h]
    rfl
  rw [hrun]
  unfold outcome
  cases settings? readFile request with
  | none => rfl
  | some config =>
    simp only [run_evaluateAll _ (Engine.sound_newCache config)]
    rfl

theorem outcome_append_output (expressions expressions' : List String) :
    (outcome readFile request (expressions ++ expressions')).output =
      (outcome readFile request expressions).output ++ (outcome readFile request expressions').output := by
  unfold outcome
  cases settings? readFile request with
  | none => rfl
  | some config => simp only [List.map_append, report_append]

/-- What is printed for several groups of expressions is what is printed for each group. -/
theorem outcome_flatten_output (groups : List (List String)) :
    (outcome readFile request groups.flatten).output =
      String.join (groups.map fun group => (outcome readFile request group).output) := by
  induction groups with
  | nil =>
    unfold outcome
    cases settings? readFile request <;> rfl
  | cons group rest ih =>
    rw [List.flatten_cons, outcome_append_output, ih, List.map_cons, String.join_cons]

/-- Several groups of expressions end with 1 exactly if one of the groups does. -/
theorem outcome_flatten_status (groups : List (List String)) :
    (outcome readFile request groups.flatten).status = 1 ↔
      ∃ group ∈ groups, (outcome readFile request group).status = 1 := by
  unfold outcome
  cases settings? readFile request with
  | none =>
    constructor
    · intro h
      cases h
    · rintro ⟨_, _, h⟩
      cases h
  | some config =>
    simp only [report_status, List.mem_map, List.mem_flatten]
    constructor
    · rintro ⟨line, ⟨text, ⟨group, hgroup, hmem⟩, htext⟩, hline⟩
      exact ⟨group, hgroup, line, ⟨text, hmem, htext⟩, hline⟩
    · rintro ⟨group, hgroup, line, ⟨text, hmem, htext⟩, hline⟩
      exact ⟨line, ⟨text, ⟨group, hgroup, hmem⟩, htext⟩, hline⟩

/-! ## Arguments -/

theorem parse_version (h : "--version" ∈ args) : parse args = some .version :=
  if_pos (List.contains_iff_mem.2 h)

theorem parse_of_notMem (h : "--version" ∉ args) : parse args = (splitOptions args).map .evaluation :=
  if_neg fun hcontains => h (List.contains_iff_mem.1 hcontains)

/-- **A command that is asked for its version does nothing else**, whatever its other arguments are. -/
theorem run_version (h : "--version" ∈ args) : build.run readFile args input = ⟨0, build.versionLine ++ "\n"⟩ := by
  unfold Build.run
  rw [parse_version h]

/-- An expression is an argument that is not taken for an option. -/
theorem mem_of_mem_expressions (h : splitOptions args = some request) (hmem : expression ∈ request.expressions) :
    expression ∈ args ∧ expression ≠ "--config" := by
  fun_induction splitOptions args generalizing request with
  | case1 =>
    cases h
    cases hmem
  | case2 => cases h
  | case3 file rest ih =>
    obtain ⟨request', hsplit, rfl⟩ := Option.map_eq_some_iff.1 h
    obtain ⟨hrest, hne⟩ := ih hsplit hmem
    exact ⟨List.mem_cons_of_mem _ (List.mem_cons_of_mem _ hrest), hne⟩
  | case4 first rest hlast hconfig ih =>
    obtain ⟨request', hsplit, rfl⟩ := Option.map_eq_some_iff.1 h
    rcases List.mem_cons.1 hmem with rfl | hlater
    · refine ⟨List.mem_cons_self, ?_⟩
      rintro rfl
      cases rest with
      | nil => exact hlast rfl rfl
      | cons file rest => exact hconfig file rest rfl rfl
    · obtain ⟨hrest, hne⟩ := ih hsplit hlater
      exact ⟨List.mem_cons_of_mem _ hrest, hne⟩

theorem mem_of_configFile (h : splitOptions args = some request) (hfile : request.configFile = some file) :
    file ∈ args := by
  fun_induction splitOptions args generalizing request with
  | case1 =>
    cases h
    cases hfile
  | case2 => cases h
  | case3 first rest ih =>
    obtain ⟨⟨configFile, expressions⟩, hsplit, rfl⟩ := Option.map_eq_some_iff.1 h
    cases configFile with
    | none =>
      cases hfile
      exact List.mem_cons_of_mem _ List.mem_cons_self
    | some last =>
      cases hfile
      exact List.mem_cons_of_mem _ (List.mem_cons_of_mem _ (ih hsplit rfl))
  | case4 first rest _ _ ih =>
    obtain ⟨request', hsplit, rfl⟩ := Option.map_eq_some_iff.1 h
    exact List.mem_cons_of_mem _ (ih hsplit hfile)

/-! ## The arguments for one expression -/

/-- **The arguments for one expression** under the settings of a request. -/
def Request.alone (request : Request) (expression : String) : List String :=
  request.configFile.elim [expression] fun file => ["--config", file, expression]

theorem splitOptions_singleton (h : expression ≠ "--config") :
    splitOptions [expression] = some ⟨none, [expression]⟩ := by
  rw [splitOptions]
  · rfl
  · intro hconfig
    exact absurd hconfig h
  · intro file rest hconfig
    exact absurd hconfig h

theorem splitOptions_alone (request : Request) (h : expression ≠ "--config") :
    splitOptions (request.alone expression) = some ⟨request.configFile, [expression]⟩ := by
  obtain ⟨file?, expressions⟩ := request
  cases file? with
  | none => exact splitOptions_singleton h
  | some file =>
    change splitOptions ("--config" :: file :: [expression]) = _
    rw [splitOptions, splitOptions_singleton h]
    rfl

/-- The arguments for one expression are among those that the request is read from. -/
theorem version_notMem_alone (hversion : "--version" ∉ args) (h : splitOptions args = some request)
    (hmem : expression ∈ request.expressions) : "--version" ∉ request.alone expression := by
  have hexpression : expression ≠ "--version" := ne_of_mem_of_not_mem (mem_of_mem_expressions h hmem).1 hversion
  unfold Request.alone
  cases hfile : request.configFile with
  | none => simpa using hexpression.symm
  | some file =>
    have hfile : file ≠ "--version" := ne_of_mem_of_not_mem (mem_of_configFile h hfile) hversion
    simpa using ⟨hfile.symm, hexpression.symm⟩

theorem run_alone (hversion : "--version" ∉ args) (h : splitOptions args = some request)
    (hmem : expression ∈ request.expressions) :
    build.run readFile (request.alone expression) input = outcome readFile request [expression] := by
  have hparse : parse (request.alone expression) = some (.evaluation ⟨request.configFile, [expression]⟩) := by
    rw [parse_of_notMem (version_notMem_alone hversion h hmem),
      splitOptions_alone request (mem_of_mem_expressions h hmem).2]
    rfl
  exact run_eq_outcome hparse

/-! ## The lines of an input -/

/-- The lines of an input. -/
def inputLines (input : String) : List String := (input.toList.splitOn '\n').map String.ofList

/-- No line of a text holds the end of a line. -/
theorem newline_notMem_of_mem_splitOn {cs line : List Char} (h : line ∈ cs.splitOn '\n') : '\n' ∉ line := by
  rw [List.splitOn_eq_splitOnP] at h
  induction cs generalizing line with
  | nil =>
    rw [List.mem_singleton.1 h]
    exact List.not_mem_nil
  | cons c rest ih =>
    rw [List.splitOnP_cons_eq_if_modifyHead] at h
    split_ifs at h with hc
    · rcases List.mem_cons.1 h with rfl | hrest
      · exact List.not_mem_nil
      · exact ih hrest
    · rcases hlines : rest.splitOnP (· == '\n') with _ | ⟨first, others⟩
      · rw [hlines] at h
        cases h
      · rw [hlines] at h ih
        rcases List.mem_cons.1 h with rfl | hothers
        · simp only [List.mem_cons, not_or]
          refine ⟨?_, ih List.mem_cons_self⟩
          rintro rfl
          exact hc (beq_self_eq_true _)
        · exact ih (List.mem_cons_of_mem _ hothers)

/-- A line is one expression, unless it is blank. -/
theorem inputExpressions_line {line : List Char} (h : '\n' ∉ line) :
    inputExpressions (String.ofList line) =
      if Text.trim line = [] then [] else [String.ofList (Text.trim line)] := by
  have hsplit : line.splitOn '\n' = [line] := by
    rw [List.splitOn_eq_splitOnP]
    refine List.splitOnP_eq_singleton ?_
    intro c hc
    exact beq_eq_false_iff_ne.2 (ne_of_mem_of_not_mem hc h)
  unfold inputExpressions
  rw [String.toList_ofList, hsplit]
  split_ifs with hempty <;> simp [hempty]

/-- **The expressions of an input** are those of its lines. -/
theorem inputExpressions_eq_flatten (input : String) :
    inputExpressions input = ((inputLines input).map inputExpressions).flatten := by
  have hlines : (inputLines input).map inputExpressions = (input.toList.splitOn '\n').map fun line =>
      if Text.trim line = [] then [] else [String.ofList (Text.trim line)] := by
    rw [inputLines, List.map_map]
    refine List.map_congr_left ?_
    intro line hmem
    exact inputExpressions_line (newline_notMem_of_mem_splitOn hmem)
  rw [hlines, inputExpressions]
  induction input.toList.splitOn '\n' with
  | nil => rfl
  | cons line rest ih =>
    rw [List.map_cons, List.map_cons, List.flatten_cons, ← ih]
    by_cases hempty : Text.trim line = [] <;> simp [hempty]

/-! ## Alone -/

/-- **The runs for each expression alone**: for each expression of the arguments, or for each line of the
input if the arguments have none. -/
def Build.runsAlone (build : Build) (readFile : String → Option String) (args : List String) (input : String) :
    List Result :=
  match splitOptions args with
  | none => []
  | some request =>
    if request.expressions.isEmpty then (inputLines input).map fun line => build.run readFile args line
    else request.expressions.map fun expression => build.run readFile (request.alone expression) input

/-- The runs for each expression alone, as groups of the expressions that the command evaluates. -/
theorem exists_runsAlone (build : Build) (readFile : String → Option String) (input : String)
    (hversion : "--version" ∉ args) (h : splitOptions args = some request) :
    ∃ groups : List (List String), request.toEvaluate input = groups.flatten ∧
      build.runsAlone readFile args input = groups.map (outcome readFile request) := by
  have hparse : parse args = some (.evaluation request) := by
    rw [parse_of_notMem hversion, h]
    rfl
  simp only [Build.runsAlone, h, Request.toEvaluate]
  split_ifs with hempty
  · refine ⟨(inputLines input).map inputExpressions, inputExpressions_eq_flatten input, ?_⟩
    rw [List.map_map]
    refine List.map_congr_left ?_
    intro line _
    have hline : build.run readFile args line = outcome readFile request (request.toEvaluate line) :=
      run_eq_outcome hparse
    rwa [Request.toEvaluate, if_pos hempty] at hline
  · refine ⟨request.expressions.map ([·]), ?_, ?_⟩
    · rw [← List.flatMap_def, List.flatMap_singleton']
    · rw [List.map_map]
      refine List.map_congr_left ?_
      intro expression hmem
      exact run_alone hversion h hmem

/-- **A command is its expressions one by one**: it prints what the runs for each expression alone print, and
it ends with 1 exactly if one of them does. -/
theorem run_eq_runsAlone (build : Build) (readFile : String → Option String) (input : String)
    (hversion : "--version" ∉ args) :
    (build.run readFile args input).output = String.join ((build.runsAlone readFile args input).map Result.output) ∧
      ((build.run readFile args input).status = 1 ↔
        ∃ result ∈ build.runsAlone readFile args input, result.status = 1) := by
  have hparse := parse_of_notMem hversion
  rcases hsplit : splitOptions args with _ | request
  · simp [Build.run, Build.runsAlone, hparse, hsplit]
  · obtain ⟨groups, hgroups, hruns⟩ := exists_runsAlone build readFile input hversion hsplit
    rw [hsplit] at hparse
    rw [run_eq_outcome hparse, hgroups, hruns]
    constructor
    · rw [outcome_flatten_output, List.map_map]
      rfl
    · rw [outcome_flatten_status]
      simp

/-- **The path cache is invisible.** Under any settings an engine that is asked for one thing after another
gives each time the answer of a new engine, and its cache holds for a text only what compiling the text
gives. So a command that is not asked for its version prints what the runs for each of its expressions alone
print, and it ends with 1 exactly if one of them does. -/
theorem cache_invisible :
    (∀ (config : Config) (requests : List Engine.Request),
      let run := (Engine.answerAll config requests).run (Engine.newCache config)
      run.1 = requests.map (Engine.Request.answerAlone config) ∧
        ∀ text path, (text, path) ∈ run.2.entries → Path.compile config.maxPathSteps text = .ok path) ∧
    ∀ (build : Build) (readFile : String → Option String) (args : List String) (input : String),
      "--version" ∉ args →
      (build.run readFile args input).output = String.join ((build.runsAlone readFile args input).map Result.output) ∧
        ((build.run readFile args input).status = 1 ↔
          ∃ result ∈ build.runsAlone readFile args input, result.status = 1) := by
  refine ⟨?_, fun build readFile args input => run_eq_runsAlone build readFile input⟩
  intro config requests
  obtain ⟨hanswers, hsound⟩ := Engine.run_answerAll requests (Engine.sound_newCache config)
  exact ⟨hanswers, hsound.compiled⟩

/-- Two expressions under settings that keep one path, the second of which breaks off. -/
theorem cache_invisible_two :
    "--version" ∉ ["--config", "settings.toml", "JSON_VALUE(JSON '[7]', '$[0]')", "JSON_VALUE("] ∧
    (run (fun _ => some "path_cache_capacity = 1")
        ["--config", "settings.toml", "JSON_VALUE(JSON '[7]', '$[0]')", "JSON_VALUE("] "").output =
      String.join [(run (fun _ => some "path_cache_capacity = 1")
          ["--config", "settings.toml", "JSON_VALUE(JSON '[7]', '$[0]')"] "").output,
        (run (fun _ => some "path_cache_capacity = 1") ["--config", "settings.toml", "JSON_VALUE("] "").output] ∧
    (run (fun _ => some "path_cache_capacity = 1")
        ["--config", "settings.toml", "JSON_VALUE(JSON '[7]', '$[0]')", "JSON_VALUE("] "").status = 1 := by
  have hversion : "--version" ∉ ["--config", "settings.toml", "JSON_VALUE(JSON '[7]', '$[0]')", "JSON_VALUE("] := by
    decide
  have hfails :
      (run (fun _ => some "path_cache_capacity = 1") ["--config", "settings.toml", "JSON_VALUE("] "").status = 1 := by
    decide +kernel
  obtain ⟨houtput, hstatus⟩ :=
    cache_invisible.2 .standard (fun _ => some "path_cache_capacity = 1") _ "" hversion
  exact ⟨hversion, houtput, hstatus.2 ⟨_, .tail _ (.head _), hfails⟩⟩

end SqlJson.Command
