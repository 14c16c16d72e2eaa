import SqlJson.Error
import SqlJson.Proofs.Path.Reading
import SqlJson.Proofs.Text.Integer
import SqlJson.Proofs.Text.Scan

/-!
# Scanning paths

The reader of paths as it runs over the bytes of a text: bare names, the digits of indices and the runs of characters
between escapes are cut out of the text.

* `scanQuoted`, `scanStep`: names in quotes, and steps.
* `scan`: **a whole path**.
* `run_scan`: **scanning a path gives what compiling it gives**, and does not go wrong.
-/

namespace SqlJson.Path

open Text

section

variable (text : String)

/-- A fault at a place. -/
def failAt {α : Type} (fault : Fault) (i : Nat) : Scanning α := throwThe Error (.path text fault i)

/-- The byte at a place where there has to be one. -/
def byteAt (i : Nat) : Checked Char :=
  match byteAt? text i with
  | some b => .ok b
  | none => .error .outside

/-- A byte that stands for itself between quotes. -/
def isPlain (quote b : Char) : Bool := b ≠ quote && b ≠ '\\'

/-- Scans a name up to its closing quote, after what has been put together. Each round takes a run of plain bytes and
cuts it out. The fuel bounds the number of rounds. -/
def scanQuotedFrom (quote : Char) (opening : Nat) : Nat → String → Nat → Scanning (String × Nat)
  | 0, _, _ => endless
  | fuel + 1, out, start =>
    let i := skipWhile (isPlain quote) text start
    match byteAt? text i with
    | none => failAt text .unterminatedName opening
    | some b => do
      let run ← slice text start i
      if b = quote then return (out ++ run, i + 1)
      else
        match byteAt? text (i + 1) with
        | some e =>
          if e = quote ∨ e = '\\' then scanQuotedFrom quote opening fuel ((out ++ run).push e) (i + 2)
          else failAt text .unknownEscape i
        | none => failAt text .unknownEscape i

/-- **Scans a name in quotes** from its opening quote on. -/
def scanQuoted (quote : Char) (opening : Nat) : Scanning (String × Nat) :=
  scanQuotedFrom text quote opening (text.utf8ByteSize + 1) "" (opening + 1)

/-- Scans a closing bracket after a step. -/
def scanClose (step : Step) (i : Nat) : Scanning (Step × Nat) :=
  if byteAt? text i = some ']' then return (step, i + 1) else failAt text .expectedClose i

/-- Scans what stands between brackets, and the closing one. -/
def scanBracketed (i : Nat) : Scanning (Step × Nat) :=
  match byteAt? text i with
  | none => failAt text .expectedIndexOrName i
  | some b =>
    if b = '"' ∨ b = '\'' then do
      let (name, i) ← scanQuoted text b i
      scanClose text (.quoted name) i
    else if b.isDigit then do
      let j := skipWhile Char.isDigit text i
      let digits ← slice text i j
      match Text.readInteger 0 maxIndex digits.toList with
      | .ok index => scanClose text (.index index.toNat) j
      | .error _ => failAt text .indexTooLarge i
    else failAt text .expectedIndexOrName i

/-- **Scans a step.** -/
def scanStep (i : Nat) : Scanning (Step × Nat) := do
  let b ← byteAt text i
  if b = '.' then
    let i := i + 1
    if byteAt? text i = some '"' then do
      let (name, i) ← scanQuoted text '"' i
      return (.quoted name, i)
    else
      let j := skipWhile (!endsName ·) text i
      if j = i then failAt text .expectedName i
      else do
        let name ← slice text i j
        return (.member name, j)
  else if b = '[' then scanBracketed text (i + 1)
  else failAt text .unexpectedCharacter i

/-- Scans steps up to the end of a text, after those in `before`, latest first. The fuel bounds the number of steps. -/
def scanSteps (maxSteps : Nat) : Nat → List Step → Nat → Scanning (List Step)
  | 0, _, _ => endless
  | fuel + 1, before, i =>
    if i < text.utf8ByteSize then do
      let (step, i) ← scanStep text i
      -- the root counts as a step, and is taken off again
      let taken ← decrement (before.length + 2)
      if maxSteps < taken then failAt text (.tooManySteps maxSteps) i
      else scanSteps maxSteps fuel (step :: before) i
    else return before.reverse

end

/-- **Scans a whole path.** -/
def scan (maxSteps : Nat) (text : String) : Scanning Path :=
  if text = "$" then return ⟨text, []⟩
  else if byteAt? text 0 = some '$' then do
    let steps ← scanSteps text maxSteps (text.utf8ByteSize + 1) [] 1
    return ⟨text, steps⟩
  else failAt text .noRoot 0

/-! ## Scanning and reading -/

/-- What a failure says about a text. -/
def Failure.toError (text : String) (failure : Failure) : Error :=
  .path text failure.fault (byteSize text.toList - byteSize failure.rest)

theorem compile_eq (maxSteps : ℕ) (text : String) : compile maxSteps text = (do
    let steps ← readChars maxSteps text.toList
    return Path.mk text steps).mapError (Failure.toError text) := by
  unfold compile
  cases readChars maxSteps text.toList <;> rfl

variable {α β : Type} {text : String} {quote b c : Char} {cs opening rest run : List Char} {fault : Fault} {i n : ℕ}
  {step : Step} {before : List Step} {maxSteps fuel : ℕ} {R : β → α → Prop}

theorem tracks_fail (h : Place text i rest) :
    Tracks (Failure.toError text) R (failAt text fault i) (fail fault rest) := by
  rw [failAt, h.eq_sub]
  exact .error (Failure.mk fault rest)

/-! ## Names in quotes -/

theorem uniform_isPlain (hquote : quote.toNat < 128) : Uniform (isPlain quote) := by
  have hall (c : Char) (hc : 128 ≤ c.toNat) : isPlain quote c = true := by
    have hne : c ≠ quote := by rintro rfl; omega
    have hbackslash : c ≠ '\\' := by rintro rfl; exact absurd hc (by decide)
    simp [isPlain, hne, hbackslash]
  intro b c hb hc
  rw [hall b hb, hall c hc]

/-- A run of plain characters is read character by character. -/
theorem readQuoted_run (hrun : ∀ c ∈ run, isPlain quote c) (opening rest : List Char) :
    readQuoted quote opening (run ++ rest) = (do
      let (name, after) ← readQuoted quote opening rest
      return (run ++ name, after)) := by
  induction run with
  | nil =>
    rw [List.nil_append]
    cases readQuoted quote opening rest <;> rfl
  | cons c run ih =>
    obtain ⟨hc, hrun'⟩ := List.forall_mem_cons.1 hrun
    simp only [isPlain, Bool.and_eq_true, decide_eq_true_eq] at hc
    rw [List.cons_append, readQuoted.eq_def]
    dsimp only
    rw [if_neg hc.1, if_neg hc.2, ih hrun']
    cases readQuoted quote opening rest <;> rfl

theorem tracks_quotedFrom (hquote : quote.toNat < 128) {o : ℕ} (hopening : Place text o opening) (fuel : ℕ)
    {start : ℕ} (out : String) (hfuel : cs.length < fuel) (h : Place text start cs) :
    Tracks (Failure.toError text) (Behind text out) (scanQuotedFrom text quote o fuel out start)
      (readQuoted quote opening cs) := by
  induction fuel generalizing out start cs with
  | zero => omega
  | succ fuel ih =>
    obtain ⟨run, rest, rfl, hrun, hstop, hplace, hslice⟩ := h.exists_run (uniform_isPlain hquote)
    unfold scanQuotedFrom
    dsimp only
    generalize skipWhile (isPlain quote) text start = i at hplace hslice ⊢
    rw [List.length_append] at hfuel
    -- the run comes first in what is read
    rw [readQuoted_run hrun]
    refine Tracks.andThen (R := Behind text (out ++ String.ofList run)) ?_ ?_
    · cases rest with
      | nil =>
        rw [hplace.byteAt?_nil]
        exact tracks_fail hopening
      | cons c rest =>
        rw [List.length_cons] at hfuel
        rw [readQuoted.eq_def]
        dsimp only
        by_cases hclose : c = quote
        · subst hclose
          rw [hplace.byteAt?_of_lt hquote, if_pos rfl]
          dsimp only
          rw [hslice, liftM_ok_bind, if_pos rfl]
          exact .ok ⟨by simp, hplace.next hquote⟩
        obtain rfl : c = '\\' := by simpa [isPlain, hclose] using stops_cons.1 hstop
        have hnext := hplace.next (by decide)
        rw [hplace.byteAt?_of_lt (by decide), if_neg hclose, if_pos rfl]
        dsimp only
        rw [hslice, liftM_ok_bind, if_neg hclose]
        cases rest with
        | nil =>
          rw [hnext.byteAt?_nil]
          exact tracks_fail hplace
        | cons e rest =>
          dsimp only
          by_cases he : e = quote ∨ e = '\\'
          · have hlt : e.toNat < 128 := by
              rcases he with rfl | rfl
              · exact hquote
              · decide
            rw [List.length_cons] at hfuel
            rw [hnext.byteAt?_of_lt hlt, if_pos he]
            dsimp only
            rw [if_pos he]
            refine (ih ((out ++ String.ofList run).push e) (by omega) (hnext.next hlt)).andThen ?_
            rintro ⟨name, j⟩ ⟨chars, after⟩ ⟨hname, hj⟩
            refine ⟨(e :: chars, after), rfl, ?_, hj⟩
            rw [hname, ← String.toList_inj]
            simp
          · obtain ⟨b, hb, hlead⟩ := hnext.exists_leads
            have hb_neg : ¬(b = quote ∨ b = '\\') := by
              rwa [hlead.eq_iff hquote, hlead.eq_iff (by decide)]
            rw [hb, if_neg he]
            dsimp only
            rw [if_neg hb_neg]
            exact tracks_fail hplace
    · rintro ⟨name, j⟩ ⟨chars, after⟩ ⟨hname, hj⟩
      refine ⟨(run ++ chars, after), rfl, ?_, hj⟩
      rw [hname, String.ofList_append, String.append_assoc]

/-- **A name in quotes is scanned as it is read.** -/
theorem tracks_quoted (hquote : quote.toNat < 128) (h : Place text i (quote :: cs)) :
    Tracks (Failure.toError text) (Behind text "") (scanQuoted text quote i) (readQuoted quote (quote :: cs) cs) := by
  have hcs := h.next hquote
  have hsize := hcs.size
  have hlength := length_le_byteSize cs
  exact tracks_quotedFrom hquote h _ "" (by omega) hcs

/-! ## Steps -/

theorem scans_close (h : Place text i cs) :
    Tracks (Failure.toError text) (At text) (scanClose text step i) (readClose step cs) := by
  by_cases hclose : ∃ tail, cs = ']' :: tail
  · obtain ⟨tail, rfl⟩ := hclose
    rw [scanClose, if_pos (h.byteAt?_of_lt (by decide))]
    exact .ok ⟨rfl, h.next (by decide)⟩
  · have hread : readClose step cs = fail .expectedClose cs := by
      unfold readClose
      split <;> simp_all
    rw [scanClose, if_neg (h.byteAt?_ne (by decide) fun tail heq => hclose ⟨tail, heq⟩), hread]
    exact tracks_fail h

/-- The digits of an index are an integer of its range, unless the index is too large. -/
theorem readInteger_index (hne : cs ≠ []) (hd : ∀ c ∈ cs, c.isDigit) :
    if maxIndex < Nat.ofDigitChars 10 cs 0 then ∃ fault, Text.readInteger 0 maxIndex cs = .error fault
    else Text.readInteger 0 maxIndex cs = .ok (Nat.ofDigitChars 10 cs 0 : ℤ) := by
  have hread (z : ℤ) : Text.readInteger 0 maxIndex cs = .ok z ↔ _ :=
    readInteger_eq_ok_iff_of_nonpos (le_refl 0) (Int.natCast_nonneg maxIndex)
  split_ifs with hmax
  · cases hz : Text.readInteger 0 maxIndex cs with
    | error fault => exact ⟨fault, rfl⟩
    | ok z =>
      obtain ⟨hintegral, -, hle, -⟩ := (hread z).1 hz
      cases hintegral with
      | plain => omega
      | plus => exact absurd (hd '+' List.mem_cons_self) (by decide)
      | minus => exact absurd (hd '-' List.mem_cons_self) (by decide)
  · refine (hread _).2 ⟨.plain ⟨hne, hd⟩, Int.natCast_nonneg _, by omega, fun hminus => ?_⟩
    exact absurd (hd '-' (List.mem_of_mem_head? hminus)) (by decide)

theorem scans_bracketed (h : Place text i cs) :
    Tracks (Failure.toError text) (At text) (scanBracketed text i) (readBracketed cs) := by
  unfold scanBracketed readBracketed
  cases cs with
  | nil =>
    rw [h.byteAt?_nil]
    exact tracks_fail h
  | cons c rest =>
    obtain ⟨b, hb, hlead⟩ := h.exists_leads
    have hquote_iff : (b = '"' ∨ b = '\'') ↔ (c = '"' ∨ c = '\'') := by
      rw [hlead.eq_iff (by decide), hlead.eq_iff (by decide)]
    have hdigit_iff := hlead.uniform uniform_isDigit
    rw [hb]
    dsimp only
    by_cases hquote : c = '"' ∨ c = '\''
    · have hc : c.toNat < 128 := by rcases hquote with rfl | rfl <;> decide
      obtain rfl := (hlead.eq_iff hc).2 rfl
      rw [if_pos hquote, if_pos hquote]
      exact (tracks_quoted hc h).bind_behind fun name j after _ hj => scans_close hj
    rw [if_neg hquote, if_neg (hquote_iff.not.2 hquote), hdigit_iff]
    by_cases hdigit : c.isDigit
    · have hplace := h.skipWhile uniform_isDigit
      have hslice := h.slice_run uniform_isDigit
      have hne : (c :: rest).takeWhile Char.isDigit ≠ [] := by
        rw [List.takeWhile_cons_of_pos hdigit]
        exact List.cons_ne_nil _ _
      have hindex := readInteger_index hne (List.all_eq_true.1 List.all_takeWhile)
      rw [if_pos hdigit, if_pos hdigit, hslice, liftM_ok_bind, String.toList_ofList]
      split_ifs at hindex with hmax
      · obtain ⟨fault, hfault⟩ := hindex
        rw [hfault, if_pos hmax]
        exact tracks_fail h
      · rw [hindex, if_neg hmax]
        exact scans_close hplace
    · rw [if_neg hdigit, if_neg hdigit]
      exact tracks_fail h

theorem uniform_endsName : Uniform (!endsName ·) := by
  have hends : Uniform endsName := uniform_of_lt fun c hc => by
    have hlt : ['.', '[', ']', '"', '\'', '*', ' ', '\t', '\n', '\x0c', '\r'].all fun c => c.toNat < 128 := by decide
    exact of_decide_eq_true (List.all_eq_true.1 hlt c (List.contains_iff_mem.1 hc))
  intro b c hb hc
  exact congrArg not (hends b c hb hc)

/-- **A step is scanned as it is read.** -/
theorem scans_step (h : Place text i cs) (hne : cs ≠ []) :
    Tracks (Failure.toError text) (At text) (scanStep text i) (readStep cs) := by
  obtain ⟨c, rest, rfl⟩ := List.exists_cons_of_ne_nil hne
  obtain ⟨b, hb, hlead⟩ := h.exists_leads
  unfold scanStep
  rw [byteAt, hb]
  dsimp only
  rw [liftM_ok_bind]
  by_cases hdot : c = '.'
  · subst hdot
    obtain rfl := (hlead.eq_iff (by decide)).2 rfl
    have hrest := h.next (by decide)
    rw [if_pos rfl]
    by_cases hquote : ∃ tail, rest = '"' :: tail
    · obtain ⟨tail, rfl⟩ := hquote
      rw [if_pos (hrest.byteAt?_of_lt (by decide)), readStep_quoted]
      exact (tracks_quoted (by decide) hrest).bind_behind fun name j after _ hj => .ok ⟨rfl, hj⟩
    · have hrun : Place text (i + 1) (rest.takeWhile (!endsName ·) ++ rest.dropWhile (!endsName ·)) := by
        rwa [List.takeWhile_append_dropWhile]
      have hplace := hrest.skipWhile uniform_endsName
      have hslice := hrest.slice_run uniform_endsName
      rw [if_neg (hrest.byteAt?_ne (by decide) fun tail heq => hquote ⟨tail, heq⟩),
        readStep_bare fun tail heq => hquote ⟨tail, heq⟩]
      by_cases hname : rest.takeWhile (!endsName ·) = []
      · rw [if_pos hname, if_pos ((hrun.eq_iff hplace).2 hname)]
        exact tracks_fail hrest
      · rw [if_neg hname, if_neg ((hrun.eq_iff hplace).not.2 hname), hslice, liftM_ok_bind]
        exact .ok ⟨rfl, hplace⟩
  by_cases hbracket : c = '['
  · subst hbracket
    obtain rfl := (hlead.eq_iff (by decide)).2 rfl
    rw [if_neg (by decide), if_pos rfl]
    exact scans_bracketed (h.next (by decide))
  · rw [if_neg ((hlead.eq_iff (by decide)).not.2 hdot), if_neg ((hlead.eq_iff (by decide)).not.2 hbracket),
      readStep_other hdot hbracket]
    exact tracks_fail h

/-- **Steps are scanned as they are read.** Each is at least one character long. -/
theorem tracks_steps (fuel : ℕ) (hfuel : cs.length < fuel) (hn : cs.length ≤ n) (h : Place text i cs) :
    Tracks (Failure.toError text) (· = ·) (scanSteps text maxSteps fuel before i) (readSteps maxSteps n before cs) := by
  induction fuel generalizing n before i cs with
  | zero => omega
  | succ fuel ih =>
    unfold scanSteps
    cases cs with
    | nil =>
      have hread : readSteps maxSteps n before [] = .ok before.reverse := by cases n <;> rfl
      rw [if_neg (h.lt_iff.not.2 (not_not.2 rfl)), hread]
      exact .ok rfl
    | cons c tail =>
      have hne : c :: tail ≠ [] := List.cons_ne_nil c tail
      rw [List.length_cons] at hfuel hn
      obtain ⟨n, rfl⟩ := Nat.exists_eq_succ_of_ne_zero (by omega : n ≠ 0)
      rw [if_pos (h.lt_iff.2 hne), readSteps]
      on_goal 2 => exact hne
      refine (scans_step h hne).bind_at fun s j rest hstep hj => ?_
      obtain ⟨w, hw, hcs⟩ := readStep_sound hstep
      obtain ⟨d, ds, rfl, -⟩ := Grammar.writes_head hw
      have hlength := congrArg List.length hcs
      rw [List.cons_append, List.length_cons, List.length_cons, List.length_append] at hlength
      dsimp only
      rw [show decrement (before.length + 2) = .ok (before.length + 1) from rfl, liftM_ok_bind]
      by_cases hmax : maxSteps ≤ before.length
      · rw [if_pos hmax, if_pos (Nat.lt_succ_of_le hmax)]
        exact tracks_fail hj
      · rw [if_neg hmax, if_neg (by omega)]
        exact ih (by omega) (by omega) hj

/-- **Scanning a path gives what compiling it gives.** -/
theorem run_scan (maxSteps : ℕ) (text : String) : (scan maxSteps text).run = .ok (compile maxSteps text) := by
  rw [compile_eq]
  refine Tracks.run_eq ?_
  have hplace := place_zero text
  have hsize := length_le_byteSize text.toList
  rw [byteSize_toList] at hsize
  unfold scan
  by_cases hroot : text = "$"
  · subst hroot
    rw [if_pos rfl]
    exact .ok rfl
  rw [if_neg hroot]
  by_cases hdollar : ∃ tail, text.toList = '$' :: tail
  · obtain ⟨tail, htext⟩ := hdollar
    rw [htext] at hplace hsize ⊢
    rw [List.length_cons] at hsize
    rw [if_pos (hplace.byteAt?_of_lt (by decide)), readChars]
    refine (tracks_steps _ (by omega) (le_refl _) (hplace.next (by decide))).bind fun steps steps' _ hsteps => ?_
    obtain rfl : steps = steps' := hsteps
    exact .ok rfl
  · have hread : readChars maxSteps text.toList = fail .noRoot text.toList := by
      unfold readChars
      split <;> simp_all
    rw [if_neg (hplace.byteAt?_ne (by decide) fun tail heq => hdollar ⟨tail, heq⟩), hread]
    exact tracks_fail hplace

end SqlJson.Path
