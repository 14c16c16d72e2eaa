import SqlJson.Path.Reader
import SqlJson.Proofs.Except
import SqlJson.Proofs.Path.Grammar
import SqlJson.Proofs.Text.Runs

/-!
# The path reader accepts the grammar

Each reader takes off the front of a text what the grammar has there, and nothing else. A name without
quotes ends where the text goes on with a character that ends names, and every step begins with one.

* `readQuoted_sound`, `readQuoted_complete`: names between quotes.
* `readStep_quoted`, `readStep_bare`, `readStep_bracket`: what a step begins with.
* `readStep_sound`, `readStep_complete`: single steps.
* `compile_eq_ok_iff_denotes`: a text is compiled to the steps it stands for.
-/

namespace SqlJson.Path

open Grammar

variable {quote : Char} {opening cs rest w ws name : List Char} {s : Step} {before steps more : List Step}
  {maxSteps fuel : ℕ} {text : String} {path : Path}

theorem fail_ne_ok {α : Type} {fault : Fault} {a : α} : (fail fault rest : Reading α) ≠ .ok a := by
  simp [fail]

/-! ## Names -/

theorem endsName_eq_false_iff {c : Char} : endsName c = false ↔ Bare c := by
  unfold endsName Bare
  rw [← Bool.not_eq_true, List.contains_iff_mem, ← not_or, ← List.mem_append]
  rfl

/-- A character behind which the name goes on comes first in what is read. -/
theorem bind_cons_eq_ok_iff {x : Reading (List Char × List Char)} {c : Char} :
    (do let (name, after) ← x; return (c :: name, after)) = .ok (name, rest) ↔
      ∃ tail, x = .ok (tail, rest) ∧ name = c :: tail := by
  cases x with
  | error e => simp [bind, Except.bind]
  | ok result =>
    obtain ⟨tail, after⟩ := result
    simp only [bind, Except.bind, pure, Except.pure, Except.ok.injEq, Prod.mk.injEq]
    constructor
    · rintro ⟨rfl, rfl⟩
      exact ⟨tail, ⟨rfl, rfl⟩, rfl⟩
    · rintro ⟨tail', ⟨rfl, rfl⟩, rfl⟩
      exact ⟨rfl, rfl⟩

theorem readQuoted_sound (h : readQuoted quote opening cs = .ok (name, rest)) :
    ∃ ws, Escaped quote ws name ∧ cs = ws ++ quote :: rest := by
  fun_induction readQuoted quote opening cs generalizing name with
  | case1 => exact absurd h fail_ne_ok
  | case2 after =>
    cases h
    exact ⟨[], .nil, rfl⟩
  | case3 e after he _ ih =>
    obtain ⟨tail, htail, rfl⟩ := bind_cons_eq_ok_iff.1 h
    obtain ⟨ws, hws, rfl⟩ := ih htail
    exact ⟨_, .escape he hws, rfl⟩
  | case4 => exact absurd h fail_ne_ok
  | case5 => exact absurd h fail_ne_ok
  | case6 c after hq hb ih =>
    obtain ⟨tail, htail, rfl⟩ := bind_cons_eq_ok_iff.1 h
    obtain ⟨ws, hws, rfl⟩ := ih htail
    exact ⟨_, .plain hq hb hws, rfl⟩

theorem readQuoted_complete (hq : quote ≠ '\\') (h : Escaped quote ws name) (opening rest : List Char) :
    readQuoted quote opening (ws ++ quote :: rest) = .ok (name, rest) := by
  induction h with
  | nil =>
    rw [List.nil_append, readQuoted.eq_def]
    exact if_pos rfl
  | @plain c ws cs hc hb _ ih =>
    rw [List.cons_append, readQuoted.eq_def]
    simp only [if_neg hc, if_neg hb]
    exact bind_cons_eq_ok_iff.2 ⟨cs, ih, rfl⟩
  | @escape c ws cs hc _ ih =>
    rw [List.cons_append, List.cons_append, readQuoted.eq_def]
    simp only [if_neg hq.symm, if_true, if_pos hc]
    exact bind_cons_eq_ok_iff.2 ⟨cs, ih, rfl⟩

/-! ## Steps -/

theorem readClose_eq_ok_iff {result : Step × List Char} :
    readClose s cs = .ok result ↔ cs = ']' :: result.2 ∧ result.1 = s := by
  unfold readClose
  split
  · simp [Prod.ext_iff, eq_comm, and_comm]
  · rename_i hne
    refine iff_of_false fail_ne_ok ?_
    rintro ⟨rfl, -⟩
    exact hne _ rfl

/-- Digits are neither quotes nor anything else that may stand behind a bracket. -/
theorem isDigit_ne_quote {c : Char} (h : c.isDigit) : ¬(c = '"' ∨ c = '\'') := by
  rintro (rfl | rfl) <;> revert h <;> decide

theorem readBracketed_sound (h : readBracketed cs = .ok (s, rest)) :
    ∃ w, Writes ('[' :: w) s ∧ cs = w ++ rest := by
  unfold readBracketed at h
  split at h
  · exact absurd h fail_ne_ok
  · rename_i c tail
    split_ifs at h with hquote hdigit
    · obtain ⟨⟨name, after⟩, hname, hclose⟩ := Except.bind_eq_ok_iff.1 h
      obtain ⟨ws, hws, rfl⟩ := readQuoted_sound hname
      obtain ⟨rfl, rfl⟩ := readClose_eq_ok_iff.1 hclose
      exact ⟨c :: ws ++ [c, ']'], .bracketed hquote hws, by simp⟩
    · dsimp only at h
      split_ifs at h with hmax
      · exact absurd h fail_ne_ok
      · obtain ⟨hrest, rfl⟩ := readClose_eq_ok_iff.1 h
        refine ⟨(c :: tail).takeWhile Char.isDigit ++ [']'], .index ?_ ?_ ?_, ?_⟩
        · rw [List.takeWhile_cons_of_pos hdigit]
          exact List.cons_ne_nil _ _
        · exact List.all_eq_true.1 List.all_takeWhile
        · exact Nat.not_lt.1 hmax
        · rw [List.append_assoc, List.singleton_append, ← hrest, List.takeWhile_append_dropWhile]
    · exact absurd h fail_ne_ok

theorem readStep_quoted : readStep ('.' :: '"' :: cs) = (do
    let (name, rest) ← readQuoted '"' ('"' :: cs) cs
    return (.quoted (String.ofList name), rest)) := rfl

/-- A name without quotes is read where no quote stands behind the dot. -/
theorem readStep_bare (h : ∀ tail, cs ≠ '"' :: tail) : readStep ('.' :: cs) =
    if cs.takeWhile (!endsName ·) = [] then fail .expectedName cs
    else .ok (.member (String.ofList (cs.takeWhile (!endsName ·))), cs.dropWhile (!endsName ·)) := by
  rw [readStep]
  exact h

theorem readStep_bracket : readStep ('[' :: cs) = readBracketed cs := rfl

theorem readStep_other {c : Char} (hdot : c ≠ '.') (hbracket : c ≠ '[') :
    readStep (c :: cs) = fail .unexpectedCharacter (c :: cs) := by
  unfold readStep
  split <;> simp_all

theorem readStep_sound (h : readStep cs = .ok (s, rest)) : ∃ w, Writes w s ∧ cs = w ++ rest := by
  cases cs with
  | nil => exact absurd h fail_ne_ok
  | cons c cs =>
    by_cases hdot : c = '.'
    · subst hdot
      by_cases hquote : ∃ tail, cs = '"' :: tail
      · obtain ⟨tail, rfl⟩ := hquote
        rw [readStep_quoted] at h
        obtain ⟨⟨name, after⟩, hname, h'⟩ := Except.bind_eq_ok_iff.1 h
        cases h'
        obtain ⟨ws, hws, rfl⟩ := readQuoted_sound hname
        exact ⟨_, .dotted hws, by simp⟩
      · rw [readStep_bare fun tail heq => hquote ⟨tail, heq⟩] at h
        split_ifs at h with hne
        · exact absurd h fail_ne_ok
        · cases h
          refine ⟨_, .bare hne ?_, by rw [List.cons_append, List.takeWhile_append_dropWhile]⟩
          intro c hc
          have hname := List.all_eq_true.1 List.all_takeWhile c hc
          rw [Bool.not_eq_true'] at hname
          exact endsName_eq_false_iff.1 hname
    by_cases hbracket : c = '['
    · subst hbracket
      rw [readStep_bracket] at h
      obtain ⟨w, hw, rfl⟩ := readBracketed_sound h
      exact ⟨_, hw, rfl⟩
    · rw [readStep_other hdot hbracket] at h
      exact absurd h fail_ne_ok

/-- **A step is read** where the text goes on with a character that ends names. -/
theorem readStep_complete (h : Writes w s) (hr : Stops (!endsName ·) rest) :
    readStep (w ++ rest) = .ok (s, rest) := by
  cases h with
  | @bare cs hne hbare =>
    have hname : ∀ c ∈ cs, !endsName c := fun c hc => by rw [endsName_eq_false_iff.2 (hbare c hc)]; rfl
    -- a name does not begin with a quote
    have hquote : ∀ tail, cs ++ rest ≠ '"' :: tail := by
      intro tail heq
      obtain ⟨c, cs', rfl⟩ := List.exists_cons_of_ne_nil hne
      rw [List.cons_append, List.cons.injEq] at heq
      rw [heq.1] at hbare
      exact absurd (hbare '"' List.mem_cons_self) (by decide)
    rw [List.cons_append, readStep_bare hquote, takeWhile_run hname hr, dropWhile_run hname hr]
    exact if_neg hne
  | @dotted ws cs hws =>
    have hread := readQuoted_complete (by decide) hws ('"' :: (ws ++ '"' :: rest)) rest
    simp only [List.cons_append, List.append_assoc, List.nil_append, readStep_quoted, hread]
    rfl
  | @bracketed quote ws cs hq hws =>
    have hne : quote ≠ '\\' := by rcases hq with rfl | rfl <;> decide
    have hread := readQuoted_complete hne hws (quote :: (ws ++ quote :: ']' :: rest)) (']' :: rest)
    simp only [List.cons_append, List.append_assoc, List.nil_append, readStep_bracket, readBracketed, if_pos hq, hread]
    rfl
  | @index ds hne hd hmax =>
    obtain ⟨d, ds', rfl⟩ := List.exists_cons_of_ne_nil hne
    have hdigit := hd d List.mem_cons_self
    have hstop : Stops Char.isDigit (']' :: rest) := stops_cons.2 (by decide)
    have hrun : d :: (ds' ++ ']' :: rest) = d :: ds' ++ ']' :: rest := rfl
    have hle : ¬maxIndex < Nat.ofDigitChars 10 (d :: ds') 0 := Nat.not_lt.2 hmax
    simp only [List.cons_append, List.append_assoc, List.nil_append, readStep_bracket, readBracketed,
      if_neg (isDigit_ne_quote hdigit), if_pos hdigit]
    rw [hrun, takeWhile_run hd hstop, dropWhile_run hd hstop, if_neg hle]
    rfl

/-! ## Paths -/

theorem stops_writesAll (h : WritesAll ws steps) : Stops (!endsName ·) ws := by
  cases h with
  | nil => exact stops_nil
  | cons hw _ =>
    obtain ⟨c, tail, rfl, hc⟩ := writes_head hw
    refine stops_cons.2 ?_
    rcases hc with rfl | rfl <;> decide

/-- What is read step by step, by induction on the fuel: at no time are there more steps than allowed. -/
theorem readSteps_sound (hb : before.length ≤ maxSteps)
    (h : readSteps maxSteps fuel before cs = .ok steps) :
    ∃ more, steps = before.reverse ++ more ∧ WritesAll cs more ∧ before.length + more.length ≤ maxSteps := by
  induction fuel generalizing before cs with
  | zero =>
    cases cs with
    | nil =>
      cases h
      exact ⟨[], (List.append_nil _).symm, .nil, hb⟩
    | cons => exact absurd h fail_ne_ok
  | succ fuel ih =>
    cases cs with
    | nil =>
      cases h
      exact ⟨[], (List.append_nil _).symm, .nil, hb⟩
    | cons c tail =>
      rw [readSteps] at h
      · obtain ⟨⟨s, after⟩, hs, h'⟩ := Except.bind_eq_ok_iff.1 h
        obtain ⟨w, hw, hcs⟩ := readStep_sound hs
        dsimp only at h'
        split_ifs at h' with hmax
        · exact absurd h' fail_ne_ok
        · obtain ⟨more, rfl, hmore, hlength⟩ := ih (by rw [List.length_cons]; omega) h'
          rw [List.length_cons] at hlength
          refine ⟨s :: more, by simp, ?_, by rw [List.length_cons]; omega⟩
          rw [hcs]
          exact .cons hw hmore
      · exact List.cons_ne_nil c tail

/-- Each step has a character of its own, so the length of a text is fuel enough. -/
theorem readSteps_complete (h : WritesAll ws more) (hmax : before.length + more.length ≤ maxSteps)
    (hf : ws.length ≤ fuel) : readSteps maxSteps fuel before ws = .ok (before.reverse ++ more) := by
  induction h generalizing before fuel with
  | nil =>
    rw [List.append_nil]
    cases fuel <;> rfl
  | @cons w ws s more hw hmore ih =>
    obtain ⟨c, tail, hcons, -⟩ := writes_head hw
    rw [List.length_cons] at hmax
    rw [List.length_append, hcons, List.length_cons] at hf
    obtain ⟨fuel, rfl⟩ : ∃ f, fuel = f + 1 := ⟨fuel - 1, by omega⟩
    rw [readSteps]
    · rw [readStep_complete hw (stops_writesAll hmore)]
      simp only [bind, Except.bind]
      rw [if_neg (by omega), ih (by rw [List.length_cons]; omega) (by omega)]
      simp
    · rw [hcons]
      exact List.cons_ne_nil c _

theorem readChars_eq_ok_iff : readChars maxSteps cs = .ok steps ↔ Denotes maxSteps cs steps := by
  unfold readChars Denotes
  split
  · rename_i ws
    constructor
    · intro h
      obtain ⟨more, rfl, hmore, hlength⟩ := readSteps_sound (Nat.zero_le _) h
      rw [List.length_nil, Nat.zero_add] at hlength
      exact ⟨ws, rfl, hmore, hlength⟩
    · rintro ⟨ws', heq, hsteps, hlength⟩
      cases heq
      exact readSteps_complete hsteps (by simpa using hlength) le_rfl
  · rename_i hne
    refine iff_of_false fail_ne_ok ?_
    rintro ⟨ws, rfl, -⟩
    exact hne ws rfl

/-- **A text is compiled to the steps it stands for.** -/
theorem compile_eq_ok_iff_denotes :
    compile maxSteps text = .ok path ↔ path.text = text ∧ Denotes maxSteps text.toList path.steps := by
  obtain ⟨pathText, pathSteps⟩ := path
  rw [← readChars_eq_ok_iff, compile]
  cases readChars maxSteps text.toList <;> simp [eq_comm]

end SqlJson.Path
