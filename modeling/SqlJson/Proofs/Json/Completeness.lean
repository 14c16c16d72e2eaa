import SqlJson.Proofs.Json.Forms

/-!
# What derives in the grammar is read

By induction on the derivation (`reading_complete`). The invariant is `Complete`: it says for each
form what its reader makes of a text that begins with it, and how much fuel is enough, which is two
units for each character. A number ends only where the text goes on with something else, hence the
conditions on what follows.
-/

namespace SqlJson.Json

open Grammar

variable {options : Options} {mode : Option WideMode} {fuel depth d : ℕ}
  {b cs w rest : List Char} {v : Json}

/-- A value begins with a character that is no blank and closes nothing. -/
theorem derives_value_head (h : Derives mode d w (.value v)) :
    ∃ c tail, w = c :: tail ∧ isBlank c = false ∧ c ≠ ']' := by
  cases h with
  | number hw hn =>
    obtain ⟨c, tail, rfl, hc⟩ := literal_head hw
    rcases hc with rfl | hc
    · exact ⟨_, _, rfl, by decide, by decide⟩
    · exact ⟨c, tail, rfl, isBlank_of_isDigit hc, by rintro rfl; revert hc; decide⟩
  | string hw =>
    obtain ⟨tail, rfl⟩ := quoted_head hw
    exact ⟨_, _, rfl, by decide, by decide⟩
  | null => exact ⟨_, _, rfl, by decide, by decide⟩
  | true => exact ⟨_, _, rfl, by decide, by decide⟩
  | false => exact ⟨_, _, rfl, by decide, by decide⟩
  | emptyArray _ => exact ⟨_, _, rfl, by decide, by decide⟩
  | array _ => exact ⟨_, _, rfl, by decide, by decide⟩
  | emptyObject _ => exact ⟨_, _, rfl, by decide, by decide⟩
  | object _ => exact ⟨_, _, rfl, by decide, by decide⟩

theorem derives_padded_head (h : Derives mode d w (.padded v)) (rest : List Char) :
    ∃ c tail, skipBlanks (w ++ rest) = c :: tail ∧ c ≠ ']' := by
  cases h with
  | @padded d b₁ cs b₂ v h₁ hv h₂ =>
    obtain ⟨c, tail, rfl, hb, hc⟩ := derives_value_head hv
    refine ⟨c, tail ++ (b₂ ++ rest), ?_, hc⟩
    simp only [List.append_assoc, List.cons_append]
    exact skipBlanks_append h₁ (stops_cons.2 hb)

theorem derives_elements_head {items : List Json} (h : Derives mode d w (.elements items))
    (rest : List Char) : ∃ c tail, skipBlanks (w ++ rest) = c :: tail ∧ c ≠ ']' := by
  cases h with
  | oneElement hp => exact derives_padded_head hp rest
  | moreElements hp _ =>
    rw [List.append_assoc]
    exact derives_padded_head hp _

theorem derives_member_head {key : String} (h : Derives mode d w (.member key v))
    (rest : List Char) : ∃ tail, skipBlanks (w ++ rest) = '"' :: tail := by
  cases h with
  | @member d b₁ ks b₂ cs key v h₁ hk h₂ hp =>
    obtain ⟨tail, rfl⟩ := quoted_head hk
    refine ⟨tail ++ (b₂ ++ ':' :: (cs ++ rest)), ?_⟩
    simp only [List.append_assoc, List.cons_append]
    exact skipBlanks_append h₁ (stops_cons.2 (by decide))

theorem derives_members_head {members : Members} (h : Derives mode d w (.members members))
    (rest : List Char) : ∃ tail, skipBlanks (w ++ rest) = '"' :: tail := by
  cases h with
  | oneMember hm => exact derives_member_head hm rest
  | moreMembers hm _ =>
    rw [List.append_assoc]
    exact derives_member_head hm _

/-- What it means that a piece of text is read as the form it derives. A value, and what has blanks
around it, ends where the text goes on with something else; elements and members end with their
bracket or brace. -/
def Complete (options : Options) (d : ℕ) (w : List Char) : Form → Prop
  | .value v => ∀ {fuel depth rest}, depth + d ≤ options.maxDepth → 2 * w.length ≤ fuel →
      Stops continuesNumber rest → readValue options fuel depth (w ++ rest) = .ok (v, rest)
  | .padded v => ∀ {fuel depth rest}, depth + d ≤ options.maxDepth → 2 * w.length ≤ fuel →
      Stops isBlank rest → Stops continuesNumber rest →
      readPadded options fuel depth (w ++ rest) = .ok (v, rest)
  | .member key v => ∀ {fuel depth rest}, depth + d ≤ options.maxDepth → 2 * w.length ≤ fuel →
      Stops isBlank rest → Stops continuesNumber rest →
      readMember options fuel depth (w ++ rest) = .ok ((key, v), rest)
  | .elements items => ∀ {fuel depth before rest}, depth + d ≤ options.maxDepth →
      2 * w.length < fuel →
      readItems options fuel depth before (w ++ ']' :: rest) = .ok (.array (before.reverse ++ items), rest)
  | .members members => ∀ {fuel depth before rest}, depth + d ≤ options.maxDepth →
      2 * w.length < fuel →
      readMembers options fuel depth before (w ++ '\x7d' :: rest) =
        .ok (.object (members.foldl (fun kept m => Members.add kept m.1 m.2) before), rest)

theorem complete_padded {b₁ b₂ : List Char} (h₁ : Blanks b₁)
    (hv : Derives options.mode d w (.value v)) (h₂ : Blanks b₂)
    (ih : Complete options d w (.value v)) : Complete options d (b₁ ++ w ++ b₂) (.padded v) := by
  intro fuel depth rest hd hf hb hn
  -- blanks are skipped up to the value and no further, since a value begins with no blank
  obtain ⟨c, tail, rfl, hc, -⟩ := derives_value_head hv
  simp only [List.length_append] at hf
  have hvalue : readValue options fuel depth (c :: tail ++ (b₂ ++ rest)) = _ :=
    ih hd (by simp only [List.length_cons] at hf ⊢; omega) (stops_blanks h₂ hn)
  have hskip : skipBlanks (b₁ ++ (c :: tail ++ (b₂ ++ rest))) = c :: tail ++ (b₂ ++ rest) :=
    skipBlanks_append h₁ (stops_cons.2 hc)
  rw [readPadded, List.append_assoc, List.append_assoc, hskip, hvalue]
  simp only [bind, Except.bind, skipBlanks_append h₂ hb]
  rfl

theorem complete_member {b₁ ks b₂ : List Char} {key : String} (h₁ : Blanks b₁)
    (hk : Quoted ks key) (h₂ : Blanks b₂) (ih : Complete options d w (.padded v)) :
    Complete options d (b₁ ++ ks ++ b₂ ++ ':' :: w) (.member key v) := by
  intro fuel depth rest hd hf hb hn
  obtain ⟨tail, rfl⟩ := quoted_head hk
  simp only [List.length_append, List.length_cons] at hf
  have hskip : skipBlanks (b₁ ++ '"' :: (tail ++ (b₂ ++ ':' :: (w ++ rest)))) =
      '"' :: (tail ++ (b₂ ++ ':' :: (w ++ rest))) :=
    skipBlanks_append h₁ (stops_cons.2 (by decide))
  have hcolon : skipBlanks (b₂ ++ ':' :: (w ++ rest)) = ':' :: (w ++ rest) :=
    skipBlanks_append h₂ (stops_cons.2 (by decide))
  have hstring : readString ('"' :: (tail ++ (b₂ ++ ':' :: (w ++ rest)))) = _ :=
    readString_eq_ok_iff.2 ⟨_, hk, rfl⟩
  have hvalue : readPadded options fuel depth (w ++ rest) = _ := ih hd (by omega) hb hn
  simp only [List.append_assoc, List.cons_append]
  rw [readMember, readKey_quote hskip, hstring]
  simp only [bind, Except.bind, hcolon, hvalue]
  rfl

theorem complete_oneElement (ih : Complete options d w (.padded v)) :
    Complete options d w (.elements [v]) := by
  intro fuel depth before rest hd hf
  obtain ⟨fuel, rfl⟩ : ∃ f, fuel = f + 1 := ⟨fuel - 1, by omega⟩
  -- the bracket ends both the blanks and a number that may stand in front of it
  have hvalue : readPadded options fuel depth (w ++ ']' :: rest) = _ :=
    ih hd (by omega) (stops_cons.2 (by decide)) (stops_cons.2 (by decide))
  rw [readItems_succ, hvalue]
  simp only [bind, Except.bind, List.reverse_cons]

theorem complete_moreElements {ws : List Char} {items : List Json}
    (ih : Complete options d w (.padded v)) (ihs : Complete options d ws (.elements items)) :
    Complete options d (w ++ ',' :: ws) (.elements (v :: items)) := by
  intro fuel depth before rest hd hf
  rw [List.length_append, List.length_cons] at hf
  obtain ⟨fuel, rfl⟩ : ∃ f, fuel = f + 1 := ⟨fuel - 1, by omega⟩
  have hvalue : readPadded options fuel depth (w ++ ',' :: (ws ++ ']' :: rest)) = _ :=
    ih hd (by omega) (stops_cons.2 (by decide)) (stops_cons.2 (by decide))
  rw [List.append_assoc, List.cons_append, readItems_succ, hvalue]
  simp only [bind, Except.bind]
  rw [ihs hd (by omega)]
  simp

theorem complete_oneMember {key : String} (ih : Complete options d w (.member key v)) :
    Complete options d w (.members [(key, v)]) := by
  intro fuel depth before rest hd hf
  obtain ⟨fuel, rfl⟩ : ∃ f, fuel = f + 1 := ⟨fuel - 1, by omega⟩
  have hvalue : readMember options fuel depth (w ++ '\x7d' :: rest) = _ :=
    ih hd (by omega) (stops_cons.2 (by decide)) (stops_cons.2 (by decide))
  rw [readMembers_succ, hvalue]
  simp only [bind, Except.bind, List.foldl_cons, List.foldl_nil]

theorem complete_moreMembers {ws : List Char} {key : String} {members : Members}
    (ih : Complete options d w (.member key v)) (ihs : Complete options d ws (.members members)) :
    Complete options d (w ++ ',' :: ws) (.members ((key, v) :: members)) := by
  intro fuel depth before rest hd hf
  rw [List.length_append, List.length_cons] at hf
  obtain ⟨fuel, rfl⟩ : ∃ f, fuel = f + 1 := ⟨fuel - 1, by omega⟩
  have hvalue : readMember options fuel depth (w ++ ',' :: (ws ++ '\x7d' :: rest)) = _ :=
    ih hd (by omega) (stops_cons.2 (by decide)) (stops_cons.2 (by decide))
  rw [List.append_assoc, List.cons_append, readMembers_succ, hvalue]
  simp only [bind, Except.bind]
  rw [ihs hd (by omega), List.foldl_cons]

theorem complete_array {items : List Json} (h : Derives options.mode d w (.elements items))
    (ih : Complete options d w (.elements items)) :
    Complete options (d + 1) ('[' :: w ++ [']']) (.value (.array items)) := by
  intro fuel depth rest hd hf _
  simp only [List.length_append, List.length_cons, List.length_nil] at hf
  -- one unit of fuel for the array and one for its elements: the two brackets pay for them
  obtain ⟨fuel, rfl⟩ : ∃ f, fuel = f + 2 := ⟨fuel - 2, by omega⟩
  obtain ⟨c, tail, hskip, hc⟩ := derives_elements_head h (']' :: rest)
  simp only [List.append_assoc, List.cons_append, List.nil_append]
  rw [readValue_array, if_neg (by omega), readArray]
  split
  · rename_i heq
    exact absurd (List.cons.inj (hskip.symm.trans heq)).1 hc
  · rw [readItems_skipBlanks, ih (by omega) (by omega)]
    rfl

theorem complete_object {members : Members} (h : Derives options.mode d w (.members members))
    (ih : Complete options d w (.members members)) :
    Complete options (d + 1) ('\x7b' :: w ++ ['\x7d']) (.value (.object (firstOfKeys members))) := by
  intro fuel depth rest hd hf _
  simp only [List.length_append, List.length_cons, List.length_nil] at hf
  obtain ⟨fuel, rfl⟩ : ∃ f, fuel = f + 2 := ⟨fuel - 2, by omega⟩
  obtain ⟨tail, hskip⟩ := derives_members_head h ('\x7d' :: rest)
  simp only [List.append_assoc, List.cons_append, List.nil_append]
  rw [readValue_object, if_neg (by omega), readObject]
  split
  · rename_i heq
    exact absurd (List.cons.inj (hskip.symm.trans heq)).1 (by decide)
  · rw [readMembers_skipBlanks, ih (by omega) (by omega), foldl_add_nil]

theorem complete_empty (hb : Blanks b) {opening closing : Char} {empty : Json}
    (hread : ∀ {fuel depth cs rest}, depth < options.maxDepth → skipBlanks cs = closing :: rest →
      readValue options (fuel + 1) depth (opening :: cs) = .ok (empty, rest))
    (hc : isBlank closing = false) :
    Complete options (d + 1) (opening :: b ++ [closing]) (.value empty) := by
  intro fuel depth rest hd hf _
  simp only [List.length_append, List.length_cons, List.length_nil] at hf
  obtain ⟨fuel, rfl⟩ : ∃ f, fuel = f + 1 := ⟨fuel - 1, by omega⟩
  simp only [List.append_assoc, List.cons_append, List.nil_append]
  exact hread (by omega) (skipBlanks_append hb (stops_cons.2 hc))

theorem complete_number {n : Number} (hw : Literal w)
    (hn : Number.ofLiteral (String.ofList w) options.mode = .ok n) :
    Complete options d w (.value (.number n)) := by
  intro fuel depth rest hd hf hr
  obtain ⟨c, tail, rfl, hc⟩ := literal_head hw
  rw [List.length_cons] at hf
  obtain ⟨fuel, rfl⟩ : ∃ f, fuel = f + 1 := ⟨fuel - 1, by omega⟩
  rw [List.cons_append, readValue_number hc, ← List.cons_append, readNumber_complete hw hn hr]

theorem complete_string {s : String} (hw : Quoted w s) :
    Complete options d w (.value (.string s)) := by
  intro fuel depth rest hd hf _
  obtain ⟨tail, rfl⟩ := quoted_head hw
  rw [List.length_cons] at hf
  obtain ⟨fuel, rfl⟩ : ∃ f, fuel = f + 1 := ⟨fuel - 1, by omega⟩
  have hstring : readString ('"' :: (tail ++ rest)) = _ := readString_eq_ok_iff.2 ⟨_, hw, rfl⟩
  rw [List.cons_append, readValue, hstring]
  rfl

/-- **What derives in the grammar is read.** -/
theorem reading_complete {form : Form} (h : Derives options.mode d w form) :
    Complete options d w form := by
  induction h with
  | null | true | false =>
    intro fuel depth rest hd hf _
    simp only [List.length_cons] at hf
    obtain ⟨fuel, rfl⟩ : ∃ f, fuel = f + 1 := ⟨fuel - 1, by omega⟩
    rfl
  | number hw hn => exact complete_number hw hn
  | string hw => exact complete_string hw
  | emptyArray hb =>
    refine complete_empty hb ?_ (by decide)
    intro fuel depth cs rest hd hskip
    rw [readValue_array, if_neg (by omega), readArray, hskip]
    rfl
  | array hi ih => exact complete_array hi ih
  | emptyObject hb =>
    refine complete_empty hb ?_ (by decide)
    intro fuel depth cs rest hd hskip
    rw [readValue_object, if_neg (by omega), readObject, hskip]
    rfl
  | object hm ih => exact complete_object hm ih
  | padded h₁ hv h₂ ih => exact complete_padded h₁ hv h₂ ih
  | member h₁ hk h₂ _ ih => exact complete_member h₁ hk h₂ ih
  | oneElement _ ih => exact complete_oneElement ih
  | moreElements _ _ ih ihs => exact complete_moreElements ih ihs
  | oneMember _ ih => exact complete_oneMember ih
  | moreMembers _ _ ih ihs => exact complete_moreMembers ih ihs

end SqlJson.Json
