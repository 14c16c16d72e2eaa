import SqlJson.Proofs.Json.NumberText

/-!
# A reader for every form of the grammar

The reader of documents is taken apart along the grammar: blanks, values with blanks around them,
keys, members, and what follows an opening bracket or brace. The parts that are only pieces of the
reader of elements or members get names here.

* `readItems_succ`, `readMembers_succ`: the readers of elements and members by their parts.
* `opening`: what a value may begin with; `readValue_null` to `readValue_other` say what the reader of values
  does then.
* `foldl_add`: the reader keeps the first of the members with equal keys.
-/

namespace SqlJson.Json

open Grammar

variable {options : Options} {mode : Option WideMode} {fuel depth d : ℕ}
  {b cs w rest : List Char} {v : Json}

/-! ## Blanks -/

theorem isBlank_iff {c : Char} : isBlank c ↔ c = ' ' ∨ c = '\t' ∨ c = '\n' ∨ c = '\r' := by
  simp [isBlank, or_assoc]

theorem isBlank_of_isDigit {c : Char} (hc : c.isDigit) : isBlank c = false := by
  rw [← Bool.not_eq_true, isBlank_iff]
  rintro (rfl | rfl | rfl | rfl) <;> (revert hc; decide)

theorem blanks_iff : Blanks b ↔ ∀ c ∈ b, isBlank c := by simp only [isBlank_iff]; rfl

theorem skipBlanks_append (hb : Blanks b) (h : Stops isBlank rest) : skipBlanks (b ++ rest) = rest :=
  dropWhile_run (blanks_iff.1 hb) h

theorem skipBlanks_of_stops (h : Stops isBlank rest) : skipBlanks rest = rest :=
  skipBlanks_append blanks_nil h

theorem stops_skipBlanks (cs : List Char) : Stops isBlank (skipBlanks cs) := stops_dropWhile cs

theorem exists_blanks (cs : List Char) : ∃ b, Blanks b ∧ cs = b ++ skipBlanks cs :=
  ⟨cs.takeWhile isBlank, blanks_iff.2 (List.all_eq_true.1 List.all_takeWhile),
    List.takeWhile_append_dropWhile.symm⟩

/-- Blanks do not continue a number. -/
theorem stops_blanks (hb : Blanks b) (h : Stops continuesNumber rest) :
    Stops continuesNumber (b ++ rest) := by
  cases b with
  | nil => exact h
  | cons c b =>
    rw [List.cons_append, stops_cons]
    rcases hb c (by simp) with rfl | rfl | rfl | rfl <;> decide

/-! ## Members with equal keys -/

/-- **The reader keeps the first of the members with equal keys**, where the first stood. -/
theorem foldl_add (members before : Members) :
    members.foldl (fun kept m => Members.add kept m.1 m.2) before =
      before ++ (firstOfKeys members).filter (fun m => !before.any (·.1 = m.1)) := by
  induction members generalizing before with
  | nil => simp [firstOfKeys]
  | cons m members ih =>
    obtain ⟨key, value⟩ := m
    rw [List.foldl_cons, ih, firstOfKeys, Members.add]
    simp only
    -- either the key was kept before, or the first member keeps the later ones with its key away
    split_ifs with h
    · rw [List.filter_cons_of_neg (by simpa using h), List.filter_filter]
      congr 1
      apply List.filter_congr
      intro m _
      by_cases hm : m.1 = key
      · simp [hm, h]
      · simp [hm]
    · rw [List.filter_cons_of_pos (by rw [Bool.not_eq_true] at h; simp only [h]; rfl), List.append_assoc, List.singleton_append,
        List.filter_filter]
      congr 2
      apply List.filter_congr
      intro m _
      by_cases hm : m.1 = key
      · simp [hm]
      · simp [hm, Ne.symm hm]

theorem foldl_add_nil (members : Members) :
    members.foldl (fun kept m => Members.add kept m.1 m.2) [] = firstOfKeys members := by
  rw [foldl_add]
  simp

theorem ofMembers_eq (members : Members) : ofMembers members = object (firstOfKeys members) := by
  rw [ofMembers, foldl_add_nil]

/-! ## Readers of single forms -/

/-- Reads a value with blanks around it. -/
def readPadded (options : Options) (fuel depth : ℕ) (cs : List Char) : Reading (Json × List Char) := do
  let (value, rest) ← readValue options fuel depth (skipBlanks cs)
  return (value, skipBlanks rest)

/-- Reads the key of a member. -/
def readKey (cs : List Char) : Reading (String × List Char) :=
  match skipBlanks cs with
  | '"' :: rest => readString ('"' :: rest)
  | rest => fail .expectedKey rest

theorem readKey_quote {tail : List Char} (h : skipBlanks cs = '"' :: tail) :
    readKey cs = readString ('"' :: tail) := by
  rw [readKey, h]
  rfl

theorem readKey_other (h : ∀ tail, skipBlanks cs = '"' :: tail → False) :
    readKey cs = fail .expectedKey (skipBlanks cs) := by
  rw [readKey]
  split
  · rename_i heq
    exact absurd heq (h _)
  · rfl

/-- Reads a member with blanks around it. -/
def readMember (options : Options) (fuel depth : ℕ) (cs : List Char) :
    Reading ((String × Json) × List Char) := do
  let (key, rest) ← readKey cs
  match skipBlanks rest with
  | ':' :: rest =>
    let (value, rest) ← readPadded options fuel depth rest
    return ((key, value), rest)
  | rest => fail .expectedColon rest

theorem readMember_colon {key : String} {after rest : List Char} (hk : readKey cs = .ok (key, after))
    (h : skipBlanks after = ':' :: rest) : readMember options fuel depth cs = (do
      let (value, rest) ← readPadded options fuel depth rest
      return ((key, value), rest)) := by
  rw [readMember, hk]
  simp only [bind, Except.bind, h]

theorem readMember_other {key : String} {after : List Char} (hk : readKey cs = .ok (key, after))
    (h : ∀ rest, skipBlanks after = ':' :: rest → False) :
    readMember options fuel depth cs = fail .expectedColon (skipBlanks after) := by
  rw [readMember, hk]
  simp only [bind, Except.bind]

theorem readItems_succ (options : Options) (fuel depth : ℕ) (before : List Json) (cs : List Char) :
    readItems options (fuel + 1) depth before cs = (do
      let (value, rest) ← readPadded options fuel depth cs
      match rest with
      | [] => fail .unexpectedEnd []
      | ',' :: rest => readItems options fuel depth (value :: before) rest
      | ']' :: rest => .ok (array (value :: before).reverse, rest)
      | rest => fail .expectedArrayEnd rest) := by
  rw [readItems, readPadded]
  cases readValue options fuel depth (skipBlanks cs) <;> rfl

theorem readMembers_succ (options : Options) (fuel depth : ℕ) (before : Members) (cs : List Char) :
    readMembers options (fuel + 1) depth before cs = (do
      let ((key, value), rest) ← readMember options fuel depth cs
      match rest with
      | [] => fail .unexpectedEnd []
      | ',' :: rest => readMembers options fuel depth (before.add key value) rest
      | '\x7d' :: rest => .ok (object (before.add key value), rest)
      | rest => fail .expectedObjectEnd rest) := by
  rw [readMembers]
  -- the reader of members takes the key, the colon and the value one by one
  split
  · rename_i tail heq
    have hkey := readKey_quote heq
    cases hstring : readString ('"' :: tail) with
    | error e =>
      rw [readMember, hkey, hstring]
      rfl
    | ok r =>
      rw [hstring] at hkey
      simp only [bind, Except.bind]
      split
      · rename_i rest hcolon
        rw [readMember_colon hkey hcolon, readPadded]
        cases readValue options fuel depth (skipBlanks rest) <;> rfl
      · rename_i hne
        rw [readMember_other hkey hne]
        rfl
  · rename_i hne
    rw [readMember, readKey_other hne]
    rfl

theorem skipBlanks_skipBlanks (cs : List Char) : skipBlanks (skipBlanks cs) = skipBlanks cs :=
  skipBlanks_of_stops (stops_skipBlanks cs)

theorem readItems_skipBlanks (options : Options) (fuel depth : ℕ) (before : List Json)
    (cs : List Char) : readItems options (fuel + 1) depth before (skipBlanks cs) =
      readItems options (fuel + 1) depth before cs := by
  rw [readItems, readItems, skipBlanks_skipBlanks]

theorem readMembers_skipBlanks (options : Options) (fuel depth : ℕ) (before : Members)
    (cs : List Char) : readMembers options (fuel + 1) depth before (skipBlanks cs) =
      readMembers options (fuel + 1) depth before cs := by
  rw [readMembers, readMembers, skipBlanks_skipBlanks]

/-- The reader of what follows an opening bracket. -/
def readArray (options : Options) (fuel depth : ℕ) (cs : List Char) : Reading (Json × List Char) :=
  match skipBlanks cs with
  | ']' :: rest => .ok (array [], rest)
  | rest => readItems options fuel (depth + 1) [] rest

/-- The reader of what follows an opening brace. -/
def readObject (options : Options) (fuel depth : ℕ) (cs : List Char) : Reading (Json × List Char) :=
  match skipBlanks cs with
  | '\x7d' :: rest => .ok (object [], rest)
  | rest => readMembers options fuel (depth + 1) [] rest

/-! ## What a value begins with -/

/-- The characters that a value other than a number begins with. -/
def openers : List Char := ['n', 't', 'f', '"', '[', '\x7b']

/-- **What a value begins with**: nothing at all, one of the characters that settle its form, or any other one. -/
inductive Opening : List Char → Prop
  | empty : Opening []
  | null (rest : List Char) : Opening ('n' :: rest)
  | true (rest : List Char) : Opening ('t' :: rest)
  | false (rest : List Char) : Opening ('f' :: rest)
  | string (rest : List Char) : Opening ('"' :: rest)
  | array (rest : List Char) : Opening ('[' :: rest)
  | object (rest : List Char) : Opening ('\x7b' :: rest)
  | other {c : Char} (hc : c ∉ openers) (rest : List Char) : Opening (c :: rest)

theorem opening (cs : List Char) : Opening cs := by
  cases cs with
  | nil => exact .empty
  | cons c rest =>
    by_cases hc : c ∈ openers
    · simp only [openers, List.mem_cons, List.not_mem_nil, or_false] at hc
      rcases hc with rfl | rfl | rfl | rfl | rfl | rfl <;> constructor
    · exact .other hc rest

theorem readValue_nil : readValue options (fuel + 1) depth [] = fail .unexpectedEnd [] := rfl

theorem readValue_null : readValue options (fuel + 1) depth ('n' :: rest) = readKeyword "null" null ('n' :: rest) := rfl

theorem readValue_true :
    readValue options (fuel + 1) depth ('t' :: rest) = readKeyword "true" (bool true) ('t' :: rest) := rfl

theorem readValue_false :
    readValue options (fuel + 1) depth ('f' :: rest) = readKeyword "false" (bool false) ('f' :: rest) := rfl

theorem readValue_string : readValue options (fuel + 1) depth ('"' :: rest) = (do
    let (value, after) ← readString ('"' :: rest)
    return (string value, after)) := rfl

theorem readValue_array : readValue options (fuel + 1) depth ('[' :: rest) =
    if options.maxDepth ≤ depth then fail (.tooDeep options.maxDepth) ('[' :: rest)
    else readArray options fuel depth rest := rfl

theorem readValue_object : readValue options (fuel + 1) depth ('\x7b' :: rest) =
    if options.maxDepth ≤ depth then fail (.tooDeep options.maxDepth) ('\x7b' :: rest)
    else readObject options fuel depth rest := rfl

theorem readValue_other {c : Char} (hc : c ∉ openers) : readValue options (fuel + 1) depth (c :: rest) =
    if c = '-' ∨ c.isDigit then readNumber options.mode (c :: rest) else fail .expectedValue (c :: rest) := by
  rw [readValue.eq_def]
  dsimp only
  split <;> simp_all [openers]

theorem readValue_number {c : Char} (hc : c = '-' ∨ c.isDigit) :
    readValue options (fuel + 1) depth (c :: rest) = readNumber options.mode (c :: rest) := by
  have hother : c ∉ openers := by
    intro hmem
    simp only [openers, List.mem_cons, List.not_mem_nil, or_false] at hmem
    rcases hmem with rfl | rfl | rfl | rfl | rfl | rfl <;> (revert hc; decide)
  rw [readValue_other hother, if_pos hc]

end SqlJson.Json
