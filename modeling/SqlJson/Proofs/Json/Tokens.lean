import SqlJson.Proofs.Json.Scanner
import SqlJson.Proofs.Json.Soundness

/-!
# The tokens of JSON are scanned as they are read

At a place between characters each scanner of a token follows the reader of that token, so that every place it comes to
is again between characters and every cut it makes goes through.

* `Scans`: a scanner that follows a reader of the front of a text.
* `scans_keyword`, `scans_escape`, `scans_string`, `scans_number`: tokens.
-/

namespace SqlJson.Json

open Text

/-- **A scanner that follows a reader** of the front of a text. -/
abbrev Scans {α : Type} (text : String) (r : Scanning (α × ℕ)) (x : Reading (α × List Char)) : Prop :=
  Tracks (Failure.toError text.toList) (At text) r x

variable {α β : Type} {text : String} {b c : Char} {cs ks opening rest : List Char} {fault : Fault} {i j n : ℕ}
  {mode : Option WideMode} {R : β → α → Prop}

/-! ## Faults -/

theorem tracks_fail (h : Place text i rest) :
    Tracks (Failure.toError text.toList) R (failAt fault i) (fail fault rest) := by
  rw [failAt, h.eq_sub]
  exact .error (Failure.malformed fault rest)

/-- A place that has been left can be gone back to. -/
theorem tracks_failBefore (h : Place text i rest) :
    Tracks (Failure.toError text.toList) R (failBefore fault (i + 1)) (fail fault rest) :=
  tracks_fail h

theorem next_of_nil (h : Place text i []) : next text i = failAt .unexpectedEnd i := by
  rw [next, h.byteAt?_nil]

theorem next_of_some (h : byteAt? text i = some b) : next text i = pure (b, i + 1) := by
  rw [next, h]

/-! ## Blanks -/

theorem uniform_isBlank : Uniform isBlank := uniform_of_lt fun c hc => by
  rcases isBlank_iff.1 hc with rfl | rfl | rfl | rfl <;> decide

theorem place_passBlanks (h : Place text i cs) : Place text (passBlanks text i) (skipBlanks cs) :=
  h.skipWhile uniform_isBlank

/-! ## Keywords -/

theorem bytes_of_lt (hk : ∀ c ∈ ks, c.toNat < 128) : bytes ks = ks := by
  induction ks with
  | nil => rfl
  | cons c ks ih =>
    obtain ⟨hc, hks⟩ := List.forall_mem_cons.1 hk
    rw [bytes, List.flatMap_cons, encode_of_lt hc]
    exact congrArg (c :: ·) (ih hks)

/-- Bytes below `128` are a prefix where they are one as characters. -/
theorem isPrefixOf_bytes (hk : ∀ c ∈ ks, c.toNat < 128) (cs : List Char) :
    ks.isPrefixOf (bytes cs) = ks.isPrefixOf cs := by
  induction ks generalizing cs with
  | nil => rfl
  | cons k ks ih =>
    obtain ⟨hk', hks⟩ := List.forall_mem_cons.1 hk
    cases cs with
    | nil => rfl
    | cons c cs =>
      rcases Nat.lt_or_ge c.toNat 128 with hc | hc
      · rw [bytes, List.flatMap_cons, encode_of_lt hc]
        exact congrArg ((k == c) && ·) (ih hks cs)
      · have hlength : 0 < (encode c).length := by rw [length_encode]; exact c.utf8Size_pos
        obtain ⟨b, tail, hencode⟩ := List.exists_cons_of_length_pos hlength
        have hb : 128 ≤ b.toNat := le_of_mem_encode hc (by rw [hencode]; exact List.mem_cons_self)
        have hkb : (k == b) = false := beq_false_of_ne fun heq => by subst heq; omega
        have hkc : (k == c) = false := beq_false_of_ne fun heq => by subst heq; omega
        rw [bytes, List.flatMap_cons, hencode, List.cons_append, List.isPrefixOf_cons_cons, List.isPrefixOf_cons_cons,
          hkb, hkc]
        rfl

theorem scans_keyword {keyword : String} (hk : keyword.toList.all fun c => c.toNat < 128) (value : Json)
    (h : Place text i cs) : Scans text (scanKeyword text keyword value i) (readKeyword keyword value cs) := by
  have hk : ∀ c ∈ keyword.toList, c.toNat < 128 := fun c hc => of_decide_eq_true (List.all_eq_true.1 hk c hc)
  unfold scanKeyword readKeyword
  rw [h.bytesFrom_eq, liftM_ok_bind, bytes_of_lt hk, isPrefixOf_bytes hk]
  by_cases hstart : keyword.toList.isPrefixOf cs
  · rw [if_pos hstart, if_pos hstart]
    obtain ⟨tail, rfl⟩ := List.isPrefixOf_iff_prefix.1 hstart
    have hafter : Place text (i + keyword.utf8ByteSize) tail := by
      rw [← byteSize_toList]
      exact h.add
    rw [← String.length_toList, List.drop_left]
    exact .ok ⟨rfl, hafter⟩
  · rw [if_neg hstart, if_neg hstart]
    exact tracks_fail h

/-! ## Escapes -/

theorem hexDigit?_eq_none (h : 128 ≤ c.toNat) : hexDigit? c = none := by
  have hdigit : ¬ c.isDigit := fun hc => absurd (lt_of_isDigit hc) (not_lt.2 h)
  have hbeyond (a b : Char) (hb : b.toNat < 128) : ¬ (a ≤ c ∧ c ≤ b) := by
    intro hbetween
    have hle := (char_between hbetween).2
    omega
  rw [hexDigit?, if_neg hdigit, if_neg (hbeyond 'a' 'f' (by decide)), if_neg (hbeyond 'A' 'F' (by decide))]

theorem scans_hex (n value : ℕ) (h : Place text i cs) : Scans text (scanHex text n value i) (readHex n value cs) := by
  induction n generalizing value i cs with
  | zero => exact .ok ⟨rfl, h⟩
  | succ n ih =>
    cases cs with
    | nil =>
      rw [scanHex, readHex, next_of_nil h]
      exact tracks_fail h
    | cons c rest =>
      obtain ⟨b, hb, ⟨hc, rfl⟩ | ⟨hc, hb'⟩⟩ := h.exists_leads
      · rw [scanHex, readHex, next_of_some hb, pure_bind]
        dsimp only
        cases hexDigit? b with
        | some digit => exact ih _ (h.next hc)
        | none => exact tracks_failBefore h
      · rw [scanHex, readHex, next_of_some hb, pure_bind, hexDigit?_eq_none hc]
        dsimp only
        rw [hexDigit?_eq_none hb']
        exact tracks_failBefore h

theorem scans_unicode {e : ℕ} {escape : List Char} (hescape : Place text e escape) (h : Place text i cs) :
    Scans text (scanUnicode text e i) (readUnicode escape cs) := by
  unfold scanUnicode readUnicode
  refine (scans_hex 4 0 h).bind_at fun unit j rest _ hj => ?_
  dsimp only
  split_ifs with hhigh hpair hlow
  · obtain ⟨hbackslash, hu⟩ := hpair
    obtain ⟨tail, rfl⟩ := List.head?_eq_some_iff.1 ((hj.byteAt?_eq_iff (by decide)).1 hbackslash)
    have htail := hj.next (by decide)
    obtain ⟨tail, rfl⟩ := List.head?_eq_some_iff.1 ((htail.byteAt?_eq_iff (by decide)).1 hu)
    refine (scans_hex 4 0 (htail.next (by decide))).bind_at fun low k after _ hk => ?_
    dsimp only
    split_ifs
    · exact .ok ⟨rfl, hk⟩
    · exact tracks_fail hescape
  · split
    · rename_i tail
      have hbackslash := hj.byteAt?_of_lt (by decide)
      have hu := (hj.next (by decide)).byteAt?_of_lt (by decide)
      exact absurd ⟨hbackslash, hu⟩ hpair
    · exact tracks_fail hescape
  · exact tracks_fail hescape
  · exact .ok ⟨rfl, hj⟩

open Grammar in
theorem lookup_eq_none (h : 128 ≤ c.toNat) : shortEscapes.lookup c = none := by
  rw [List.lookup_eq_none_iff]
  intro entry hentry
  have hlt : ∀ entry ∈ shortEscapes, entry.1.toNat < 128 := by decide
  rw [bne_iff_ne]
  rintro rfl
  have hascii := hlt entry hentry
  omega

/-- **An escape is scanned as it is read.** The place of the backslash is the one before. -/
theorem scans_escape (h : Place text i ('\\' :: cs)) :
    Scans text (scanEscape text (i + 1)) (readEscape ('\\' :: cs) cs) := by
  have hcs := h.next (by decide)
  unfold scanEscape
  rw [show decrement (i + 1) = .ok i from rfl, liftM_ok_bind]
  cases cs with
  | nil =>
    rw [next_of_nil hcs]
    exact tracks_fail hcs
  | cons c rest =>
    obtain ⟨b, hb, ⟨hc, rfl⟩ | ⟨hc, hb'⟩⟩ := hcs.exists_leads
    · rw [next_of_some hb, pure_bind, readEscape_cons]
      have hrest := hcs.next hc
      dsimp only
      cases Grammar.shortEscapes.lookup b with
      | some d => exact .ok ⟨rfl, hrest⟩
      | none =>
        dsimp only
        split_ifs
        · exact scans_unicode h hrest
        · exact tracks_fail h
    · have hb_u : b ≠ 'u' := by rintro rfl; exact absurd hb' (by decide)
      have hc_u : c ≠ 'u' := by rintro rfl; exact absurd hc (by decide)
      rw [next_of_some hb, pure_bind, readEscape_cons, lookup_eq_none hc]
      dsimp only
      rw [lookup_eq_none hb', if_neg hc_u]
      dsimp only
      rw [if_neg hb_u]
      exact tracks_fail h

/-! ## Strings -/

theorem uniform_isPlain : Uniform isPlain := by
  have hall (c : Char) (hc : 128 ≤ c.toNat) : isPlain c = true := by
    have hquote : c ≠ '"' := by rintro rfl; exact absurd hc (by decide)
    have hbackslash : c ≠ '\\' := by rintro rfl; exact absurd hc (by decide)
    have hcontrol : 0x20 ≤ c.toNat := by omega
    simp [isPlain, hquote, hbackslash, hcontrol]
  intro b c hb hc
  rw [hall b hb, hall c hc]

/-- A run of plain characters is read character by character. -/
theorem readStringFrom_run {run : List Char} (hrun : ∀ c ∈ run, isPlain c) (fuel : ℕ) (before rest : List Char) :
    readStringFrom opening (fuel + run.length) before (run ++ rest) =
      readStringFrom opening fuel (run.reverse ++ before) rest := by
  induction run generalizing before with
  | nil => rfl
  | cons c run ih =>
    obtain ⟨hc, hrun'⟩ := List.forall_mem_cons.1 hrun
    simp only [isPlain, Bool.and_eq_true, decide_eq_true_eq] at hc
    have hletter : Grammar.Letter [c] c := .plain hc.2 hc.1.1 hc.1.2
    rw [List.length_cons, ← Nat.add_assoc, ← List.singleton_append, List.append_assoc, readStringFrom_letter hletter,
      ih hrun', List.reverse_append, List.append_assoc]
    rfl

theorem readStringFrom_control {n : ℕ} {before : List Char} (hquote : c ≠ '"') (hbackslash : c ≠ '\\')
    (hcontrol : c.toNat < 0x20) :
    readStringFrom opening (n + 1) before (c :: rest) = fail .controlCharacter (c :: rest) := by
  rw [readStringFrom, if_pos hcontrol]
  · exact hquote
  · exact hbackslash

section

variable {o fuel start : ℕ} {out : String}

/-- What a round does is told by the byte behind the run. -/
theorem scanStringFrom_end (hb : byteAt? text (skipWhile isPlain text start) = none) :
    scanStringFrom text o (fuel + 1) out start = failAt .unterminatedString o := by
  rw [scanStringFrom]
  dsimp only
  rw [hb]

theorem scanStringFrom_quote (hb : byteAt? text (skipWhile isPlain text start) = some '"') :
    scanStringFrom text o (fuel + 1) out start = (do
      let run ← slice text start (skipWhile isPlain text start)
      return (out ++ run, skipWhile isPlain text start + 1)) := by
  rw [scanStringFrom]
  dsimp only
  rw [hb]
  rfl

theorem scanStringFrom_backslash (hb : byteAt? text (skipWhile isPlain text start) = some '\\') :
    scanStringFrom text o (fuel + 1) out start = (do
      let run ← slice text start (skipWhile isPlain text start)
      let (c, i) ← scanEscape text (skipWhile isPlain text start + 1)
      scanStringFrom text o fuel ((out ++ run).push c) i) := by
  rw [scanStringFrom]
  dsimp only
  rw [hb]
  rfl

theorem scanStringFrom_control (hb : byteAt? text (skipWhile isPlain text start) = some b) (hquote : b ≠ '"')
    (hbackslash : b ≠ '\\') :
    scanStringFrom text o (fuel + 1) out start = failAt .controlCharacter (skipWhile isPlain text start) := by
  rw [scanStringFrom]
  dsimp only
  rw [hb]
  split <;> simp_all

end

/-- **A string is scanned as it is read**, in as many rounds as there are escapes, and one. -/
theorem tracks_stringFrom {o : ℕ} (hopening : Place text o opening) (fuel : ℕ) {n start : ℕ} {before cs : List Char}
    (hfuel : cs.length < fuel) (hn : cs.length < n) (h : Place text start cs) :
    Tracks (Failure.toError text.toList) (fun (r : String × ℕ) (x : List Char × List Char) =>
      r.1 = String.ofList x.1 ∧ Place text r.2 x.2)
      (scanStringFrom text o fuel (String.ofList before.reverse) start) (readStringFrom opening n before cs) := by
  induction fuel generalizing n start before cs with
  | zero => omega
  | succ fuel ih =>
    obtain ⟨run, rest, rfl, hrun, hstop, hplace, hslice⟩ := h.exists_run uniform_isPlain
    rw [List.length_append] at hfuel hn
    obtain ⟨k, rfl⟩ : ∃ k, n = k + 1 + run.length := ⟨n - 1 - run.length, by omega⟩
    rw [readStringFrom_run hrun]
    cases rest with
    | nil =>
      rw [scanStringFrom_end hplace.byteAt?_nil]
      exact tracks_fail hopening
    | cons c rest =>
      rw [List.length_cons] at hfuel hn
      by_cases hquote : c = '"'
      · subst hquote
        rw [scanStringFrom_quote (hplace.byteAt?_of_lt (by decide)), readStringFrom, hslice, liftM_ok_bind]
        refine .ok ⟨?_, hplace.next (by decide)⟩
        rw [List.reverse_append, List.reverse_reverse, String.ofList_append]
      by_cases hbackslash : c = '\\'
      · subst hbackslash
        rw [scanStringFrom_backslash (hplace.byteAt?_of_lt (by decide)), readStringFrom, hslice, liftM_ok_bind]
        refine (scans_escape hplace).bind_at fun d j after hread hj => ?_
        obtain ⟨w, -, hw⟩ := readEscape_eq_ok_iff.1 hread
        have hlength := congrArg List.length hw
        rw [List.length_append] at hlength
        have hout : (String.ofList before.reverse ++ String.ofList run).push d =
            String.ofList (d :: (run.reverse ++ before)).reverse := by
          rw [← String.toList_inj]
          simp
        dsimp only
        rw [hout]
        exact ih (by omega) (by omega) hj
      · have hcontrol : c.toNat < 0x20 := by
          have hplain := stops_cons.1 hstop
          simp only [isPlain, hquote, hbackslash, ne_eq, not_false_eq_true, decide_true, Bool.true_and,
            decide_eq_false_iff_not] at hplain
          omega
        rw [scanStringFrom_control (hplace.byteAt?_of_lt (by omega)) hquote hbackslash,
          readStringFrom_control hquote hbackslash hcontrol]
        exact tracks_fail hplace

theorem scans_string (h : Place text i ('"' :: cs)) : Scans text (scanString text i) (readString ('"' :: cs)) := by
  have hcs := h.next (by decide)
  have hsize := hcs.size
  have hlength := length_le_byteSize cs
  have hlt : cs.length < ('"' :: cs).length := Nat.lt_succ_self _
  have hstring := @tracks_stringFrom text _ i h (text.utf8ByteSize + 1) _ (i + 1) [] cs (by omega) hlt hcs
  have hempty : String.ofList ([] : List Char).reverse = "" := String.ofList_nil
  rw [hempty] at hstring
  unfold scanString readString
  refine hstring.andThen ?_
  rintro ⟨s, j⟩ ⟨chars, rest⟩ ⟨hs, hj⟩
  exact ⟨(String.ofList chars, rest), rfl, hs, hj⟩

/-! ## Numbers -/

/-- A scanner that comes to the place that a reader comes to. -/
abbrev Ends (text : String) (r : Scanning ℕ) (x : Reading (List Char × List Char)) : Prop :=
  Tracks (Failure.toError text.toList) (fun i (x : List Char × List Char) => Place text i x.2) r x

theorem takeWhile_eq_nil_iff {p : Char → Bool} : cs.takeWhile p = [] ↔ cs.head?.any p = false := by
  cases cs with
  | nil => simp
  | cons c cs =>
    rw [List.takeWhile_cons, List.head?_cons, Option.any_some]
    cases p c <;> simp

/-- There is a digit where the byte at the place is one. -/
theorem any_byteAt?_iff (h : Place text i cs) :
    (byteAt? text i).any Char.isDigit = true ↔ cs.takeWhile Char.isDigit ≠ [] := by
  rw [h.any_byteAt? uniform_isDigit, ne_eq, takeWhile_eq_nil_iff, Bool.not_eq_false]

theorem place_passDigits (h : Place text i cs) : Place text (passDigits text i) (cs.dropWhile Char.isDigit) :=
  h.skipWhile uniform_isDigit

theorem passDigits_eq_iff (h : Place text i cs) : passDigits text i = i ↔ cs.takeWhile Char.isDigit = [] := by
  have hsplit : Place text i (cs.takeWhile Char.isDigit ++ cs.dropWhile Char.isDigit) := by
    rwa [List.takeWhile_append_dropWhile]
  rw [hsplit.eq_add (place_passDigits h), ← byteSize_eq_zero_iff]
  omega

theorem ends_whole (h : Place text i cs) : Ends text (scanWhole text i) (readWhole cs) := by
  unfold readWhole
  split
  · rename_i rest
    have hrest := h.next (by decide)
    have hzero := any_byteAt?_iff hrest
    unfold scanWhole
    rw [if_pos (h.byteAt?_of_lt (by decide)), splitDigits_eq]
    dsimp only
    by_cases hdigit : rest.takeWhile Char.isDigit = []
    · rw [if_pos hdigit, if_neg (by rw [hzero]; exact not_not.2 hdigit)]
      exact .ok hrest
    · rw [if_neg hdigit, if_pos (hzero.2 hdigit)]
      exact tracks_fail hrest
  · rename_i hne
    have hsplit := List.takeWhile_append_dropWhile (p := Char.isDigit) (l := cs)
    unfold scanWhole
    rw [if_neg (h.byteAt?_ne (by decide) hne), splitDigits_eq]
    dsimp only
    by_cases hdigit : cs.takeWhile Char.isDigit = []
    · rw [hdigit, List.nil_append] at hsplit
      rw [if_pos hdigit, if_neg (by rw [any_byteAt?_iff h]; exact not_not.2 hdigit), hsplit]
      exact tracks_fail h
    · rw [if_neg hdigit, if_pos ((any_byteAt?_iff h).2 hdigit)]
      exact .ok (place_passDigits h)

/-- Digits of which there must be one, with whatever is read before them. -/
theorem ends_digits (h : Place text i cs) (fault : Fault) (ds : List Char) : Ends text (scanDigits text fault i)
    (if cs.takeWhile Char.isDigit = [] then fail fault (cs.dropWhile Char.isDigit)
      else .ok (ds, cs.dropWhile Char.isDigit)) := by
  have hplace := place_passDigits h
  unfold scanDigits
  by_cases hdigit : cs.takeWhile Char.isDigit = []
  · have hstay := (passDigits_eq_iff h).2 hdigit
    rw [if_pos hdigit, if_pos hstay]
    rw [hstay] at hplace
    exact tracks_fail hplace
  · rw [if_neg hdigit, if_neg ((passDigits_eq_iff h).not.2 hdigit)]
    exact .ok hplace

theorem ends_fraction (h : Place text i cs) : Ends text (scanFraction text i) (readFraction cs) := by
  unfold readFraction
  split
  · unfold scanFraction
    rw [if_pos (h.byteAt?_of_lt (by decide)), splitDigits_eq]
    exact ends_digits (h.next (by decide)) .expectedFraction _
  · rename_i hne
    unfold scanFraction
    rw [if_neg (h.byteAt?_ne (by decide) hne)]
    exact .ok h

/-- A sign is passed where one is read. -/
theorem place_sign (h : Place text i cs) :
    Place text (if (byteAt? text i).any fun b => b = '+' || b = '-' then i + 1 else i) (splitSign cs).2 := by
  have hclass : Uniform fun b => b = '+' || b = '-' := uniform_of_lt fun c hc => by
    rcases (by simpa using hc : c = '+' ∨ c = '-') with rfl | rfl <;> decide
  rw [h.any_byteAt? hclass]
  cases cs with
  | nil => exact h
  | cons c rest =>
    rw [List.head?_cons, Option.any_some]
    by_cases hplus : c = '+'
    · subst hplus
      exact h.next (by decide)
    by_cases hminus : c = '-'
    · subst hminus
      exact h.next (by decide)
    · rw [if_neg (by simp [hplus, hminus])]
      have hnone : splitSign (c :: rest) = ([], c :: rest) := by
        unfold splitSign
        split <;> simp_all
      rwa [hnone]

theorem ends_exponent (h : Place text i cs) : Ends text (scanExponent text i) (readExponent cs) := by
  have hclass : Uniform fun b => b = 'e' || b = 'E' := uniform_of_lt fun c hc => by
    rcases (by simpa using hc : c = 'e' ∨ c = 'E') with rfl | rfl <;> decide
  unfold scanExponent
  rw [h.any_byteAt? hclass]
  cases cs with
  | nil => exact .ok h
  | cons c rest =>
    rw [readExponent, List.head?_cons, Option.any_some]
    by_cases hmark : c = 'e' ∨ c = 'E'
    · have hc : c.toNat < 128 := by rcases hmark with rfl | rfl <;> decide
      rw [if_pos hmark, if_pos (by simpa using hmark)]
      dsimp only
      rw [splitDigits_eq]
      exact ends_digits (place_sign (h.next hc)) .expectedExponent _
    · rw [if_neg hmark, if_neg (by simpa using hmark)]
      exact .ok h

theorem place_minus (h : Place text i cs) :
    Place text (if byteAt? text i = some '-' then i + 1 else i) (splitMinus cs).2 := by
  by_cases hminus : ∃ tail, cs = '-' :: tail
  · obtain ⟨tail, rfl⟩ := hminus
    rw [if_pos (h.byteAt?_of_lt (by decide))]
    exact h.next (by decide)
  · have hnone : splitMinus cs = (false, cs) := by
      unfold splitMinus
      split <;> simp_all
    rw [if_neg (h.byteAt?_ne (by decide) fun tail heq => hminus ⟨tail, heq⟩), hnone]
    exact h

/-- A literal is classified in two steps, of which the first is for integers only. -/
theorem classify_eq_match (negative : Bool) (whole fraction exponent : List Char) :
    classify mode negative whole fraction exponent =
      match if fraction = [] ∧ exponent = [] then integer? (signChars negative ++ whole ++ fraction ++ exponent)
        else none with
      | some n => .ok n
      | none => Number.ofLiteral (String.ofList (signChars negative ++ whole ++ fraction ++ exponent)) mode := by
  change (if fraction = [] ∧ exponent = [] then _ else _) = _
  by_cases hintegral : fraction = [] ∧ exponent = []
  · rw [if_pos hintegral, if_pos hintegral]
    rfl
  · rw [if_neg hintegral, if_neg hintegral]
    rfl

/-- **A number is scanned as it is read**, and its literal is cut out. -/
theorem scans_number (h : Place text i cs) : Scans text (scanNumber text mode i) (readNumber mode cs) := by
  rw [readNumber_eq]
  unfold scanNumber
  obtain ⟨negative, tail, hminus⟩ : ∃ b r, splitMinus cs = (b, r) := ⟨_, _, rfl⟩
  have htail := place_minus h
  rw [hminus] at htail ⊢
  obtain rfl := splitMinus_sound hminus
  refine (ends_whole htail).bind fun a (whole, r₁) hread₁ ha => ?_
  refine (ends_fraction ha).bind fun b (fraction, r₂) hread₂ hb => ?_
  refine (ends_exponent hb).bind fun j (exponent, rest) hread₃ hj => ?_
  dsimp only at hread₁ hread₂ hread₃ ha hb hj ⊢
  obtain ⟨-, rfl⟩ := readWhole_sound hread₁
  obtain ⟨-, rfl⟩ := readFraction_sound hread₂
  obtain ⟨-, rfl⟩ := readExponent_sound hread₃
  have hliteral : Place text i (signChars negative ++ whole ++ fraction ++ exponent ++ rest) := by simpa using h
  rw [hliteral.slice_eq hj, liftM_ok_bind, String.toList_ofList]
  have hintegral : (b = a ∧ j = b) ↔ (fraction = [] ∧ exponent = []) :=
    and_congr (ha.eq_iff hb) (hb.eq_iff hj)
  simp only [hintegral]
  rw [classify_eq_match]
  generalize signChars negative ++ whole ++ fraction ++ exponent = literal
  cases (if fraction = [] ∧ exponent = [] then integer? literal else none) with
  | some n => exact .ok ⟨rfl, hj⟩
  | none =>
    dsimp only
    cases Number.ofLiteral (String.ofList literal) mode with
    | ok n => exact .ok ⟨rfl, hj⟩
    | error error => exact .error (Failure.number error)

end SqlJson.Json
