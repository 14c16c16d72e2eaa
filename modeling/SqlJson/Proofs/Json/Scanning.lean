import SqlJson.Proofs.Json.Tokens

/-!
# JSON is scanned as it is read

The scanners of values, elements and members call one another with less fuel, as the readers do, so that they follow
them by one induction (`scanning`). Both have fuel enough: a container begun costs each of them two, and the text left
after it is shorter.

* `run_scan`: **scanning a text gives what reading it gives**, and does not go wrong.
-/

namespace SqlJson.Json

open Text

variable {text : String} {options : Options} {fuel n depth i j : ℕ} {b c : Char} {cs rest : List Char} {v : Json}

/-- Values are scanned as they are read. -/
def ValueScans (text : String) (options : Options) (fuel : ℕ) : Prop :=
  ∀ {n depth i cs}, 2 * cs.length < fuel → 2 * cs.length < n → Place text i cs →
    Scans text (scanValue text options fuel depth i) (readValue options n depth cs)

/-- Elements are scanned as they are read. -/
def ItemsScan (text : String) (options : Options) (fuel : ℕ) : Prop :=
  ∀ {n depth before i cs}, 2 * cs.length + 1 < fuel → 2 * cs.length + 1 < n → Place text i cs →
    Scans text (scanItems text options fuel depth before i) (readItems options n depth before cs)

/-- Members are scanned as they are read. -/
def MembersScan (text : String) (options : Options) (fuel : ℕ) : Prop :=
  ∀ {n depth before i cs}, 2 * cs.length + 1 < fuel → 2 * cs.length + 1 < n → Place text i cs →
    Scans text (scanMembers text options fuel depth before i) (readMembers options n depth before cs)

/-! ## What is left of a text -/

theorem length_skipBlanks_le (cs : List Char) : (skipBlanks cs).length ≤ cs.length :=
  (List.dropWhile_suffix _).length_le

theorem length_le_of_readValue (h : readValue options n depth cs = .ok (v, rest)) : rest.length ≤ cs.length := by
  obtain ⟨w, rfl, -⟩ := (reading_sound options n).1 h
  simp

theorem length_le_of_readString {s : String} (h : readString ('"' :: cs) = .ok (s, rest)) :
    rest.length ≤ ('"' :: cs).length := by
  obtain ⟨w, -, hw⟩ := readString_eq_ok_iff.1 h
  simp [hw]

/-! ## Elements and members -/

/-- **The next byte is told apart** by two characters below `128`. -/
theorem next_cases {d e : Char} (hd : d.toNat < 128) (he : e.toNat < 128) (h : Place text i cs) :
    (cs = [] ∧ next text i = failAt .unexpectedEnd i) ∨
      (∃ rest, cs = d :: rest ∧ next text i = pure (d, i + 1) ∧ Place text (i + 1) rest) ∨
      (∃ rest, cs = e :: rest ∧ next text i = pure (e, i + 1) ∧ Place text (i + 1) rest) ∨
      ∃ c b rest, cs = c :: rest ∧ next text i = pure (b, i + 1) ∧ (b ≠ d ∧ b ≠ e) ∧ (c ≠ d ∧ c ≠ e) := by
  cases cs with
  | nil => exact .inl ⟨rfl, next_of_nil h⟩
  | cons c rest =>
    obtain ⟨b, hb, hlead⟩ := h.exists_leads
    have hnext := next_of_some hb
    by_cases hcd : c = d
    · subst hcd
      obtain rfl := (hlead.eq_iff hd).2 rfl
      exact .inr (.inl ⟨rest, rfl, hnext, h.next hd⟩)
    by_cases hce : c = e
    · subst hce
      obtain rfl := (hlead.eq_iff he).2 rfl
      exact .inr (.inr (.inl ⟨rest, rfl, hnext, h.next he⟩))
    · have hbd := (hlead.eq_iff hd).not.2 hcd
      have hbe := (hlead.eq_iff he).not.2 hce
      exact .inr (.inr (.inr ⟨c, b, rest, rfl, hnext, ⟨hbd, hbe⟩, ⟨hcd, hce⟩⟩))

theorem itemsScan_succ (hv : ValueScans text options fuel) (hi : ItemsScan text options fuel) :
    ItemsScan text options (fuel + 1) := by
  intro n depth before i cs hfuel hn h
  obtain ⟨n, rfl⟩ := Nat.exists_eq_succ_of_ne_zero (by omega : n ≠ 0)
  have hle := length_skipBlanks_le cs
  rw [scanItems, readItems]
  refine (hv (by omega) (by omega) (place_passBlanks h)).bind_at fun value j rest hread hj => ?_
  have hle' := length_le_of_readValue hread
  have hle'' := length_skipBlanks_le rest
  have hplace := place_passBlanks hj
  dsimp only
  obtain ⟨hnil, hnext⟩ | ⟨tail, hcomma, hnext, htail⟩ | ⟨tail, hclose, hnext, htail⟩ |
    ⟨c, b, tail, hcons, hnext, hb, hc⟩ := next_cases (d := ',') (e := ']') (by decide) (by decide) hplace
  · rw [hnil] at hplace ⊢
    rw [hnext]
    exact tracks_fail hplace
  · rw [hcomma] at hle'' ⊢
    rw [List.length_cons] at hle''
    rw [hnext]
    exact hi (by omega) (by omega) htail
  · rw [hclose, hnext]
    exact .ok ⟨rfl, htail⟩
  · rw [hcons] at hplace ⊢
    rw [hnext, pure_bind]
    dsimp only
    split
    · exact absurd rfl hb.1
    · exact absurd rfl hb.2
    split
    · rename_i heq
      cases heq
    · rename_i heq
      exact absurd (List.cons.inj heq).1 hc.1
    · rename_i heq
      exact absurd (List.cons.inj heq).1 hc.2
    · exact tracks_failBefore hplace

theorem membersScan_succ (hv : ValueScans text options fuel) (hm : MembersScan text options fuel) :
    MembersScan text options (fuel + 1) := by
  intro n depth before i cs hfuel hn h
  obtain ⟨n, rfl⟩ := Nat.exists_eq_succ_of_ne_zero (by omega : n ≠ 0)
  have hle := length_skipBlanks_le cs
  have hstart := place_passBlanks h
  rw [scanMembers, readMembers]
  dsimp only
  by_cases hquote : ∃ tail, skipBlanks cs = '"' :: tail
  -- the key
  · obtain ⟨tail, heq⟩ := hquote
    rw [heq] at hle hstart ⊢
    rw [if_neg (not_not.2 (hstart.byteAt?_of_lt (by decide)))]
    refine (scans_string hstart).bind_at fun key j rest hkey hj => ?_
    have hle₁ := length_le_of_readString hkey
    have hle₂ := length_skipBlanks_le rest
    have hcolon := place_passBlanks hj
    dsimp only
    by_cases hmark : ∃ tail, skipBlanks rest = ':' :: tail
    -- the value
    · obtain ⟨tail, heq⟩ := hmark
      rw [heq] at hle₂ hcolon ⊢
      rw [List.length_cons] at hle₂
      have hle₃ := length_skipBlanks_le tail
      rw [if_neg (not_not.2 (hcolon.byteAt?_of_lt (by decide)))]
      have hvalue := place_passBlanks (hcolon.next (by decide))
      refine (hv (by omega) (by omega) hvalue).bind_at fun value l rest hread hl => ?_
      have hle₄ := length_le_of_readValue hread
      have hle₅ := length_skipBlanks_le rest
      have hplace := place_passBlanks hl
      dsimp only
      -- what follows the member
      obtain ⟨hnil, hnext⟩ | ⟨tail, hcomma, hnext, htail⟩ | ⟨tail, hclose, hnext, htail⟩ |
        ⟨c, b, tail, hcons, hnext, hb, hc⟩ := next_cases (d := ',') (e := '\x7d') (by decide) (by decide) hplace
      · rw [hnil] at hplace ⊢
        rw [hnext]
        exact tracks_fail hplace
      · rw [hcomma] at hle₅ ⊢
        rw [List.length_cons] at hle₅
        rw [hnext]
        exact hm (by omega) (by omega) htail
      · rw [hclose, hnext]
        exact .ok ⟨rfl, htail⟩
      · rw [hcons] at hplace ⊢
        rw [hnext, pure_bind]
        dsimp only
        split
        · exact absurd rfl hb.1
        · exact absurd rfl hb.2
        split
        · rename_i heq
          cases heq
        · rename_i heq
          exact absurd (List.cons.inj heq).1 hc.1
        · rename_i heq
          exact absurd (List.cons.inj heq).1 hc.2
        · exact tracks_failBefore hplace
    · rw [if_pos (hcolon.byteAt?_ne (by decide) fun tail heq => hmark ⟨tail, heq⟩)]
      split
      · rename_i tail heq
        exact absurd ⟨tail, heq⟩ hmark
      · exact tracks_fail hcolon
  · rw [if_pos (hstart.byteAt?_ne (by decide) fun tail heq => hquote ⟨tail, heq⟩)]
    split
    · rename_i tail heq
      exact absurd ⟨tail, heq⟩ hquote
    · exact tracks_fail hstart

/-! ## Values -/

theorem scanValue_end (h : byteAt? text i = none) :
    scanValue text options (fuel + 1) depth i = failAt .unexpectedEnd i := by
  rw [scanValue.eq_def]
  dsimp only
  rw [h]

theorem scanValue_null (h : byteAt? text i = some 'n') :
    scanValue text options (fuel + 1) depth i = scanKeyword text "null" null i := by
  rw [scanValue.eq_def]
  dsimp only
  rw [h]
  rfl

theorem scanValue_true (h : byteAt? text i = some 't') :
    scanValue text options (fuel + 1) depth i = scanKeyword text "true" (bool true) i := by
  rw [scanValue.eq_def]
  dsimp only
  rw [h]
  rfl

theorem scanValue_false (h : byteAt? text i = some 'f') :
    scanValue text options (fuel + 1) depth i = scanKeyword text "false" (bool false) i := by
  rw [scanValue.eq_def]
  dsimp only
  rw [h]
  rfl

theorem scanValue_string (h : byteAt? text i = some '"') :
    scanValue text options (fuel + 1) depth i = (do
      let (value, i) ← scanString text i
      return (string value, i)) := by
  rw [scanValue.eq_def]
  dsimp only
  rw [h]
  rfl

theorem scanValue_array (h : byteAt? text i = some '[') : scanValue text options (fuel + 1) depth i =
    if options.maxDepth ≤ depth then failAt (.tooDeep options.maxDepth) i
    else if byteAt? text (passBlanks text (i + 1)) = some ']' then pure (array [], passBlanks text (i + 1) + 1)
    else scanItems text options fuel (depth + 1) [] (passBlanks text (i + 1)) := by
  rw [scanValue.eq_def]
  dsimp only
  rw [h]
  rfl

theorem scanValue_object (h : byteAt? text i = some '\x7b') : scanValue text options (fuel + 1) depth i =
    if options.maxDepth ≤ depth then failAt (.tooDeep options.maxDepth) i
    else if byteAt? text (passBlanks text (i + 1)) = some '\x7d' then pure (object [], passBlanks text (i + 1) + 1)
    else scanMembers text options fuel (depth + 1) [] (passBlanks text (i + 1)) := by
  rw [scanValue.eq_def]
  dsimp only
  rw [h]
  rfl

/-- Behind an opening bracket or brace there is the closing one, or more. -/
theorem tracks_open {opening closing : Char} (ho : opening.toNat < 128) (hc : closing.toNat < 128) {empty : Json}
    {more : Scanning (Json × ℕ)} {x : Reading (Json × List Char)} (h : Place text i (opening :: cs))
    (hempty : ∀ tail, skipBlanks cs = closing :: tail → x = .ok (empty, tail))
    (hmore : (∀ tail, skipBlanks cs = closing :: tail → False) →
      Place text (passBlanks text (i + 1)) (skipBlanks cs) → Scans text more x) :
    Scans text
      (if options.maxDepth ≤ depth then failAt (.tooDeep options.maxDepth) i
        else if byteAt? text (passBlanks text (i + 1)) = some closing then pure (empty, passBlanks text (i + 1) + 1)
        else more)
      (if options.maxDepth ≤ depth then fail (.tooDeep options.maxDepth) (opening :: cs) else x) := by
  have hplace := place_passBlanks (h.next ho)
  by_cases hdepth : options.maxDepth ≤ depth
  · rw [if_pos hdepth, if_pos hdepth]
    exact tracks_fail h
  rw [if_neg hdepth, if_neg hdepth]
  by_cases hclose : ∃ tail, skipBlanks cs = closing :: tail
  · obtain ⟨tail, htail⟩ := hclose
    rw [hempty tail htail]
    rw [htail] at hplace
    rw [if_pos (hplace.byteAt?_of_lt hc)]
    exact .ok ⟨rfl, hplace.next hc⟩
  · have hne : ∀ tail, skipBlanks cs = closing :: tail → False := fun tail htail => hclose ⟨tail, htail⟩
    rw [if_neg (hplace.byteAt?_ne hc hne)]
    exact hmore hne hplace

theorem scans_array (hi : ItemsScan text options fuel) (hfuel : 2 * cs.length + 1 < fuel) (hn : 2 * cs.length + 1 < n)
    (h : Place text i ('[' :: cs)) :
    Scans text (scanValue text options (fuel + 1) depth i) (readValue options (n + 1) depth ('[' :: cs)) := by
  have hle := length_skipBlanks_le cs
  rw [readValue_array, scanValue_array (h.byteAt?_of_lt (by decide))]
  refine tracks_open (by decide) (by decide) h ?_ ?_
  · intro tail htail
    rw [readArray, htail]
    rfl
  · intro hne hplace
    rw [readArray]
    split
    · rename_i tail htail
      exact (hne tail htail).elim
    · exact hi (by omega) (by omega) hplace

theorem scans_object (hm : MembersScan text options fuel) (hfuel : 2 * cs.length + 1 < fuel)
    (hn : 2 * cs.length + 1 < n) (h : Place text i ('\x7b' :: cs)) :
    Scans text (scanValue text options (fuel + 1) depth i) (readValue options (n + 1) depth ('\x7b' :: cs)) := by
  have hle := length_skipBlanks_le cs
  rw [readValue_object, scanValue_object (h.byteAt?_of_lt (by decide))]
  refine tracks_open (by decide) (by decide) h ?_ ?_
  · intro tail htail
    rw [readObject, htail]
    rfl
  · intro hne hplace
    rw [readObject]
    split
    · rename_i tail htail
      exact (hne tail htail).elim
    · exact hm (by omega) (by omega) hplace

theorem scanValue_other (hb : byteAt? text i = some b) (h : b ∉ openers) : scanValue text options (fuel + 1) depth i =
    if b = '-' ∨ b.isDigit then scanNumber text options.mode i else failAt .expectedValue i := by
  rw [scanValue.eq_def]
  dsimp only
  rw [hb]
  split <;> simp_all [openers]

/-- Numbers, and what no value begins with. -/
theorem scans_other (hc : c ∉ openers) (h : Place text i (c :: cs)) :
    Scans text (scanValue text options (fuel + 1) depth i) (readValue options (n + 1) depth (c :: cs)) := by
  obtain ⟨b, hb, hlead⟩ := h.exists_leads
  have hopener : openers.all fun d => d.toNat < 128 := by decide
  have hbo : b ∉ openers := by
    intro hb
    have hlt : b.toNat < 128 := of_decide_eq_true (List.all_eq_true.1 hopener b hb)
    obtain rfl := (hlead.eq_iff hlt).1 rfl
    exact hc hb
  have hnumber : (b = '-' ∨ b.isDigit) ↔ (c = '-' ∨ c.isDigit) := by
    rw [hlead.eq_iff (by decide), hlead.uniform uniform_isDigit]
  rw [readValue_other hc, scanValue_other hb hbo]
  by_cases hc : c = '-' ∨ c.isDigit
  · rw [if_pos hc, if_pos (hnumber.2 hc)]
    exact scans_number h
  · rw [if_neg hc, if_neg (hnumber.not.2 hc)]
    exact tracks_fail h

theorem valueScans_succ (hi : ItemsScan text options fuel) (hm : MembersScan text options fuel) :
    ValueScans text options (fuel + 1) := by
  intro n depth i cs hfuel hn h
  obtain ⟨n, rfl⟩ := Nat.exists_eq_succ_of_ne_zero (by omega : n ≠ 0)
  cases opening cs with
  | empty =>
    rw [readValue_nil, scanValue_end h.byteAt?_nil]
    exact tracks_fail h
  | null =>
    rw [readValue_null, scanValue_null (h.byteAt?_of_lt (by decide))]
    exact scans_keyword (by decide) null h
  | true =>
    rw [readValue_true, scanValue_true (h.byteAt?_of_lt (by decide))]
    exact scans_keyword (by decide) (bool true) h
  | false =>
    rw [readValue_false, scanValue_false (h.byteAt?_of_lt (by decide))]
    exact scans_keyword (by decide) (bool false) h
  | string =>
    rw [readValue_string, scanValue_string (h.byteAt?_of_lt (by decide))]
    exact (scans_string h).bind_at fun s j rest _ hj => .ok ⟨rfl, hj⟩
  | array rest =>
    rw [List.length_cons] at hfuel hn
    exact scans_array hi (by omega) (by omega) h
  | object rest =>
    rw [List.length_cons] at hfuel hn
    exact scans_object hm (by omega) (by omega) h
  | other hc => exact scans_other hc h

/-- **Values, elements and members are scanned as they are read.** -/
theorem scanning (text : String) (options : Options) (fuel : ℕ) :
    ValueScans text options fuel ∧ ItemsScan text options fuel ∧ MembersScan text options fuel := by
  induction fuel with
  | zero =>
    refine ⟨?_, ?_, ?_⟩
    · intro n depth i cs hfuel
      omega
    · intro n depth before i cs hfuel
      omega
    · intro n depth before i cs hfuel
      omega
  | succ fuel ih =>
    obtain ⟨hv, hi, hm⟩ := ih
    exact ⟨valueScans_succ hi hm, itemsScan_succ hv hi, membersScan_succ hv hm⟩

/-! ## Whole texts -/

/-- **Scanning a text gives what reading it gives.** -/
theorem run_scan (options : Options) (text : String) : (scan options text).run = .ok (read options text) := by
  have hle := length_skipBlanks_le text.toList
  have hsize := length_le_byteSize text.toList
  rw [byteSize_toList] at hsize
  refine Tracks.run_eq (x := readChars options text.toList) ?_
  refine ((scanning text options _).1 (by omega) (by omega) (place_passBlanks (place_zero text))).bind_at
    fun value i rest _ hi => ?_
  have hplace := place_passBlanks hi
  dsimp only
  generalize passBlanks text i = j at hplace ⊢
  generalize skipBlanks rest = after at hplace ⊢
  cases after with
  | nil =>
    rw [if_neg (hplace.lt_iff.not.2 (not_not.2 rfl))]
    exact .ok rfl
  | cons c after =>
    rw [if_pos (hplace.lt_iff.2 (List.cons_ne_nil c after))]
    exact tracks_fail hplace

end SqlJson.Json
