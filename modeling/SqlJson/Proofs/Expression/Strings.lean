import SqlJson.Proofs.Except
import SqlJson.Proofs.Expression.Grammar

/-!
# String literals are read as they are written

A string literal ends at the first quote that no backslash escapes, so that it is read off the front of a text
without regard to what stands behind it.

* `readString_sound`, `readString_complete`: a string and its quote.
* `readToken_quote_eq_ok_iff`: a string literal among other tokens.
* `tokenize_quoted_eq_ok_iff`: a text that is one string literal.
* `tokenize_escaped`: every text can be written as a string literal, in quotes of both kinds.
-/

namespace SqlJson.Expression

open Grammar

variable {quote c : Char} {cs rest ws text : List Char} {fuel : ℕ} {before tokens : List Token} {token : Token}
  {s : String}

namespace Grammar

/-- A backslash before a character that needs none stands for itself. -/
theorem Spelled.backslash (hq : c ≠ quote) (hb : c ≠ '\\') (h : Spelled quote (c :: ws) text) :
    Spelled quote ('\\' :: c :: ws) ('\\' :: text) := by
  cases h with
  | plain _ _ h => exact .kept hq hb h
  | escape => exact absurd rfl hb
  | kept => exact absurd rfl hb

theorem spelled_escaped (quote : Char) (cs : List Char) : Spelled quote (escaped quote cs) cs := by
  induction cs with
  | nil => exact .nil
  | cons c cs ih =>
    rw [escaped, List.flatMap_cons]
    split_ifs with hc
    · exact .escape hc ih
    · exact .plain (fun h => hc (.inl h)) (fun h => hc (.inr h)) ih

end Grammar

/-! ## Strings -/

/-- A character that is put before a string that is read. -/
theorem map_cons_eq_ok_iff {x : Except Fault (List Char × List Char)} :
    (x.map fun (text, after) => (c :: text, after)) = .ok (text, rest) ↔
      ∃ tail, x = .ok (tail, rest) ∧ text = c :: tail := by
  cases x with
  | error => simp [Except.map]
  | ok r =>
    obtain ⟨tail, after⟩ := r
    simp only [Except.map, Except.ok.injEq, Prod.mk.injEq]
    constructor
    · rintro ⟨rfl, rfl⟩
      exact ⟨tail, ⟨rfl, rfl⟩, rfl⟩
    · rintro ⟨tail', ⟨rfl, rfl⟩, rfl⟩
      exact ⟨rfl, rfl⟩

theorem isEscaped_cons : isEscaped quote (c :: cs) = true ↔ c = quote ∨ c = '\\' := by
  simp [isEscaped]

theorem readString_sound (h : readString quote cs = .ok (text, rest)) :
    ∃ ws, Spelled quote ws text ∧ cs = ws ++ quote :: rest := by
  fun_induction readString quote cs generalizing text with
  | case1 => cases h
  | case2 after =>
    cases h
    exact ⟨[], .nil, rfl⟩
  | case3 => cases h
  | case4 c hq e after hescape ih =>
    obtain ⟨rfl, he⟩ := hescape
    obtain ⟨tail, htail, rfl⟩ := map_cons_eq_ok_iff.1 h
    obtain ⟨ws, hws, rfl⟩ := ih htail
    exact ⟨_, .escape (isEscaped_cons.1 he) hws, rfl⟩
  | case5 c after hq hescape ih =>
    obtain ⟨tail, htail, rfl⟩ := map_cons_eq_ok_iff.1 h
    obtain ⟨ws, hws, rfl⟩ := ih htail
    by_cases hb : c = '\\'
    · subst hb
      cases ws with
      | nil => exact absurd ⟨rfl, isEscaped_cons.2 (.inl rfl)⟩ hescape
      | cons d ws =>
        have hd : ¬(d = quote ∨ d = '\\') := fun hd => hescape ⟨rfl, isEscaped_cons.2 hd⟩
        exact ⟨_, hws.backslash (fun h => hd (.inl h)) fun h => hd (.inr h), rfl⟩
    · exact ⟨_, .plain hq hb hws, rfl⟩

theorem readString_complete (hquote : quote ≠ '\\') (h : Spelled quote ws text) (rest : List Char) :
    readString quote (ws ++ quote :: rest) = .ok (text, rest) := by
  induction h with
  | nil =>
    rw [List.nil_append, readString.eq_def]
    exact if_pos rfl
  | @plain c ws cs hq hb _ ih =>
    rw [List.cons_append, readString.eq_def]
    simp only [if_neg hq, hb, false_and, if_false]
    exact map_cons_eq_ok_iff.2 ⟨cs, ih, rfl⟩
  | @escape c ws cs hc _ ih =>
    rw [List.cons_append, List.cons_append, readString.eq_def]
    simp only [if_neg hquote.symm, isEscaped_cons.2 hc, and_self, if_true]
    exact map_cons_eq_ok_iff.2 ⟨cs, ih, rfl⟩
  | @kept c ws cs hq hb _ ih =>
    have hescape : ¬isEscaped quote (c :: (ws ++ quote :: rest)) = true := by
      rw [isEscaped_cons]
      tauto
    have hc : readString quote (c :: (ws ++ quote :: rest)) = .ok (c :: cs, rest) := by
      rw [readString.eq_def]
      simp only [if_neg hq, hb, false_and, if_false]
      exact map_cons_eq_ok_iff.2 ⟨cs, ih, rfl⟩
    rw [List.cons_append, List.cons_append, readString.eq_def]
    simp only [if_neg hquote.symm, hescape]
    exact map_cons_eq_ok_iff.2 ⟨c :: cs, hc, rfl⟩

/-! ## Tokens -/

variable (hquote : quote = '\'' ∨ quote = '"')
include hquote

/-- **A string literal among other tokens** is read as it is written. -/
theorem readToken_quote_eq_ok_iff : readToken quote cs = .ok (token, rest) ↔
    ∃ ws text, Spelled quote ws text ∧ cs = ws ++ quote :: rest ∧ token = .string (String.ofList text) := by
  have hread : readToken quote cs =
      (readString quote cs).map fun (text, after) => (.string (String.ofList text), after) := by
    rcases hquote with rfl | rfl <;> rfl
  have hne : quote ≠ '\\' := by rcases hquote with rfl | rfl <;> decide
  rw [hread]
  constructor
  · intro h
    cases hstring : readString quote cs with
    | error fault =>
      rw [hstring] at h
      cases h
    | ok r =>
      obtain ⟨text, after⟩ := r
      rw [hstring] at h
      cases h
      obtain ⟨ws, hws, hcs⟩ := readString_sound hstring
      exact ⟨ws, text, hws, hcs, rfl⟩
  · rintro ⟨ws, text, hws, rfl, rfl⟩
    rw [readString_complete hne hws]
    rfl

omit hquote

theorem readTokens_nil : readTokens fuel before [] = .ok before.reverse := by
  cases fuel <;> rfl

/-- Tokens are only added, and none for blanks alone. -/
theorem exists_append_of_readTokens (h : readTokens fuel before cs = .ok tokens) :
    ∃ more, tokens = before.reverse ++ more ∧ (more = [] → ∀ c ∈ cs, Text.isBlank c = true) := by
  induction fuel generalizing before cs with
  | zero =>
    cases cs with
    | nil =>
      cases h
      exact ⟨[], (List.append_nil _).symm, fun _ => List.forall_mem_nil _⟩
    | cons => cases h
  | succ fuel ih =>
    cases cs with
    | nil =>
      cases h
      exact ⟨[], (List.append_nil _).symm, fun _ => List.forall_mem_nil _⟩
    | cons c rest =>
      rw [readTokens] at h
      split_ifs at h with hblank
      · obtain ⟨more, rfl, hmore⟩ := ih h
        exact ⟨more, rfl, fun hnil => List.forall_mem_cons.2 ⟨hblank, hmore hnil⟩⟩
      · obtain ⟨⟨token, after⟩, -, h'⟩ := Except.bind_eq_ok_iff.1 h
        obtain ⟨more, rfl, -⟩ := ih h'
        refine ⟨token :: more, ?_, fun hnil => absurd hnil (List.cons_ne_nil _ _)⟩
        rw [List.reverse_cons, List.append_assoc, List.singleton_append]

include hquote

theorem isBlank_quote : Text.isBlank quote = false := by
  rcases hquote with rfl | rfl <;> decide +kernel

/-- The first token of a text that begins with a quote. -/
theorem tokenize_quote_cons : tokenize (String.ofList (quote :: cs)) =
    (readToken quote cs >>= fun r => readTokens cs.length [r.1] r.2) := by
  rw [tokenize, String.toList_ofList, List.length_cons, readTokens, isBlank_quote hquote]
  rfl

/-- **A text that is one string literal** is one token. -/
theorem tokenize_quoted_eq_ok_iff :
    tokenize (String.ofList (quote :: ws ++ [quote])) = .ok [.string s] ↔ Spelled quote ws s.toList := by
  rw [List.cons_append, tokenize_quote_cons hquote, Except.bind_eq_ok_iff]
  constructor
  · rintro ⟨⟨token, rest⟩, hread, htokens⟩
    obtain ⟨ws', text, hws, heq, rfl⟩ := (readToken_quote_eq_ok_iff hquote).1 hread
    obtain ⟨more, hmore, hblank⟩ := exists_append_of_readTokens htokens
    obtain ⟨hs, rfl⟩ := List.cons.inj hmore
    obtain rfl := Token.string.inj hs
    -- behind the literal there are blanks only, but the text ends with a quote
    have hrest : rest = [] := by
      rcases List.eq_nil_or_concat rest with hnil | ⟨init, last, rfl⟩
      · exact hnil
      · rw [List.concat_eq_append, ← List.cons_append, ← List.append_assoc] at heq
        obtain rfl := (List.cons.inj (List.append_inj' heq rfl).2).1
        have hlast := hblank rfl quote (by simp)
        rw [isBlank_quote hquote] at hlast
        cases hlast
    subst hrest
    rw [String.toList_ofList, (List.append_inj' heq rfl).1]
    exact hws
  · intro h
    refine ⟨_, (readToken_quote_eq_ok_iff hquote).2 ⟨ws, s.toList, h, rfl, rfl⟩, ?_⟩
    rw [readTokens_nil, String.ofList_toList]
    rfl

/-- **Every text can be written as a string literal**, with a backslash before quotes and backslashes. -/
theorem tokenize_escaped (s : String) :
    tokenize (String.ofList (quote :: escaped quote s.toList ++ [quote])) = .ok [.string s] :=
  (tokenize_quoted_eq_ok_iff hquote).2 (spelled_escaped quote s.toList)

end SqlJson.Expression
