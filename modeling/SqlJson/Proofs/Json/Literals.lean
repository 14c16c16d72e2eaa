import SqlJson.Proofs.Json.Completeness
import SqlJson.Proofs.Json.Tree

/-!
# The number literals of a text

Which numbers stand in a JSON text can be told by one pass over its characters, without regard to the grammar:
outside of strings, a number begins with a digit or a minus sign, and goes on as long as its characters do.

* `Scan`, `literals`: that pass.
* `Spells`: the literals that a piece of a text adds to those of the text.
* `stores_literals`: the literals of a text are those that its numbers are stored from, so that what a text
  denotes with numbers stored in one way follows from what it denotes with numbers stored in another.
-/

namespace SqlJson.Json

open Grammar

/-! ## Scanning -/

/-- The characters that numbers are written with. -/
def isNumeric (c : Char) : Bool := c.isDigit || c = '-' || c = '+' || c = '.' || c = 'e' || c = 'E'

/-- Where a pass over a text stands. -/
inductive Scan where
  | outside
  | string
  | escape
  /-- In a number, behind these characters of it, latest first. -/
  | number (before : List Char)

/-- Where a pass stands behind a character that is in no string and continues no number. -/
def Scan.enter (c : Char) : Scan :=
  if c = '"' then string else if c = '-' ∨ c.isDigit then number [c] else outside

/-- The literals that are found from somewhere in a text on. -/
def literalsFrom : Scan → List Char → List (List Char)
  | .number before, [] => [before.reverse]
  | _, [] => []
  | .outside, c :: rest => literalsFrom (.enter c) rest
  | .string, c :: rest =>
    literalsFrom (if c = '\\' then .escape else if c = '"' then .outside else .string) rest
  | .escape, _ :: rest => literalsFrom .string rest
  | .number before, c :: rest =>
    if isNumeric c then literalsFrom (.number (c :: before)) rest
    else before.reverse :: literalsFrom (.enter c) rest

/-- **The number literals of a text**, as they are written. -/
def literals (text : List Char) : List (List Char) := literalsFrom .outside text

/-- The literals that a piece of a text adds, if the text does not go on with a character of numbers. -/
def Spells (w : List Char) (found : List (List Char)) : Prop :=
  ∀ rest, Stops isNumeric rest → literals (w ++ rest) = found ++ literals rest

variable {mode mode' : Option WideMode} {d : ℕ} {b w w' rest : List Char} {found found' : List (List Char)}
  {c : Char}

/-! ## Pieces without numbers -/

/-- A piece of a text that a pass goes through without finding anything. -/
def Silent (w : List Char) : Prop := ∀ rest, literals (w ++ rest) = literals rest

theorem Silent.spells (h : Silent w) : Spells w [] := fun rest _ => h rest

theorem silent_nil : Silent [] := fun _ => rfl

theorem Silent.append (h : Silent w) (h' : Silent w') : Silent (w ++ w') := by
  intro rest
  rw [List.append_assoc, h, h']

theorem silent_cons (hc : Scan.enter c = .outside) (h : Silent w) : Silent (c :: w) := by
  intro rest
  rw [List.cons_append, literals, literalsFrom, hc]
  exact h rest

theorem silent_blanks (hb : Blanks b) : Silent b := by
  induction b with
  | nil => exact silent_nil
  | cons c b ih =>
    obtain ⟨hc, hrest⟩ := List.forall_mem_cons.1 hb
    refine silent_cons ?_ (ih hrest)
    rcases hc with rfl | rfl | rfl | rfl <;> rfl

/-! ## Strings -/

theorem literalsFrom_string_cons (hb : c ≠ '\\') (hq : c ≠ '"') :
    literalsFrom .string (c :: rest) = literalsFrom .string rest := by
  rw [literalsFrom, if_neg hb, if_neg hq]

/-- A hexadecimal digit is no quote and no backslash. -/
theorem hexDigit_ne {n : ℕ} (h : HexDigit c n) : c ≠ '\\' ∧ c ≠ '"' := by
  have hmem : c ∈ "0123456789abcdef".toList ∨ c ∈ "0123456789ABCDEF".toList :=
    h.imp List.mem_of_getElem? List.mem_of_getElem?
  constructor <;> rintro rfl <;> revert hmem <;> decide

theorem literalsFrom_codeUnit {n : ℕ} (h : CodeUnit w n) :
    literalsFrom .string ('\\' :: 'u' :: w ++ rest) = literalsFrom .string rest := by
  have hescape : literalsFrom .string ('\\' :: 'u' :: w ++ rest) = literalsFrom .string (w ++ rest) := rfl
  rw [hescape]
  cases h with
  | mk ha hb hc hd =>
    simp only [List.cons_append, List.nil_append]
    rw [literalsFrom_string_cons (hexDigit_ne ha).1 (hexDigit_ne ha).2,
      literalsFrom_string_cons (hexDigit_ne hb).1 (hexDigit_ne hb).2,
      literalsFrom_string_cons (hexDigit_ne hc).1 (hexDigit_ne hc).2,
      literalsFrom_string_cons (hexDigit_ne hd).1 (hexDigit_ne hd).2]

theorem literalsFrom_letter (h : Letter w c) : literalsFrom .string (w ++ rest) = literalsFrom .string rest := by
  cases h with
  | plain _ hq hb => exact literalsFrom_string_cons hb hq
  | short _ => rfl
  | unit hunit => exact literalsFrom_codeUnit hunit
  | pair hd _ he _ _ =>
    rw [List.append_assoc]
    exact (literalsFrom_codeUnit hd).trans (literalsFrom_codeUnit he)

theorem literalsFrom_letters {cs : List Char} (h : Letters w cs) :
    literalsFrom .string (w ++ rest) = literalsFrom .string rest := by
  induction h with
  | nil => rfl
  | cons hletter _ ih => rw [List.append_assoc, literalsFrom_letter hletter, ih]

/-- **A string holds no number literals**, whatever is written in it. -/
theorem silent_quoted {s : String} (h : Quoted w s) : Silent w := by
  intro rest
  cases h with
  | mk hletters =>
    rw [List.cons_append, List.cons_append, List.append_assoc]
    exact literalsFrom_letters hletters

/-! ## Numbers -/

theorem literalsFrom_number (before : List Char) (hw : ∀ c ∈ w, isNumeric c) (hr : Stops isNumeric rest) :
    literalsFrom (.number before) (w ++ rest) = (before.reverse ++ w) :: literals rest := by
  induction w generalizing before with
  | nil =>
    rw [List.nil_append, List.append_nil]
    cases rest with
    | nil => rfl
    | cons c rest =>
      have hc : isNumeric c = false := stops_cons.1 hr
      rw [literalsFrom, hc]
      rfl
  | cons c w ih =>
    obtain ⟨hc, hrest⟩ := List.forall_mem_cons.1 hw
    rw [List.cons_append, literalsFrom, if_pos hc, ih _ hrest, List.reverse_cons, List.append_assoc]
    rfl

theorem isNumeric_of_isDigit (hc : c.isDigit) : isNumeric c := by
  simp [isNumeric, hc]

theorem isNumeric_of_mem_literal (h : Literal w) : ∀ c ∈ w, isNumeric c := by
  have hdigits : ∀ {ds : List Char}, (∀ c ∈ ds, c.isDigit) → ∀ c ∈ ds, isNumeric c :=
    fun hds c hc => isNumeric_of_isDigit (hds c hc)
  cases h with
  | mk hs hw hf he =>
    simp only [List.forall_mem_append]
    refine ⟨⟨⟨?_, hdigits (digits_of_whole hw).2⟩, ?_⟩, ?_⟩
    · rcases hs with rfl | rfl <;> simp [isNumeric]
    · cases hf with
      | absent => exact List.forall_mem_nil _
      | present hds => exact List.forall_mem_cons.2 ⟨rfl, hdigits hds.2⟩
    · cases he with
      | absent => exact List.forall_mem_nil _
      | present he hs hds =>
        rw [List.cons_append, List.forall_mem_cons, List.forall_mem_append]
        refine ⟨?_, ?_, hdigits hds.2⟩
        · rcases he with rfl | rfl <;> rfl
        · rcases hs with rfl | rfl | rfl <;> simp [isNumeric]

/-- **A number literal is found**, as it is written. -/
theorem spells_literal (h : Literal w) : Spells w [w] := by
  intro rest hr
  obtain ⟨c, tail, rfl, hc⟩ := literal_head h
  have hquote : c ≠ '"' := by
    rintro rfl
    revert hc
    decide
  have htail := (List.forall_mem_cons.1 (isNumeric_of_mem_literal h)).2
  have henter : Scan.enter c = .number [c] := by rw [Scan.enter, if_neg hquote, if_pos hc]
  rw [List.cons_append, literals, literalsFrom, henter]
  exact literalsFrom_number [c] htail hr

/-! ## Pieces put together -/

theorem Silent.append_spells (h : Silent w) (h' : Spells w' found) : Spells (w ++ w') found := by
  intro rest hr
  rw [List.append_assoc, h, h' rest hr]

/-- What follows a piece must not continue its numbers. -/
theorem Spells.append (h : Spells w found) (hs : ∀ rest, Stops isNumeric rest → Stops isNumeric (w' ++ rest))
    (h' : Spells w' found') : Spells (w ++ w') (found ++ found') := by
  intro rest hr
  rw [List.append_assoc, h _ (hs rest hr), h' rest hr, List.append_assoc]

theorem Spells.append_cons (h : Spells w found) (hc : isNumeric c = false) (h' : Spells (c :: w') found') :
    Spells (w ++ c :: w') (found ++ found') :=
  h.append (fun _ _ => stops_cons.2 hc) h'

theorem Spells.append_blanks (h : Spells w found) (hb : Blanks b) : Spells (w ++ b) found := by
  have hstops : ∀ rest, Stops isNumeric rest → Stops isNumeric (b ++ rest) := by
    intro rest hr
    cases b with
    | nil => exact hr
    | cons c b =>
      rw [List.cons_append, stops_cons]
      rcases hb c List.mem_cons_self with rfl | rfl | rfl | rfl <;> rfl
  have hboth := h.append hstops (silent_blanks hb).spells
  rwa [List.append_nil] at hboth

theorem spells_cons (hc : Scan.enter c = .outside) (h : Spells w found) : Spells (c :: w) found :=
  (silent_cons hc silent_nil).append_spells h

/-- The literals of a text that is one piece. -/
theorem Spells.literals_eq (h : Spells w found) : literals w = found := by
  have hw := h [] stops_nil
  rw [List.append_nil] at hw
  exact hw.trans (List.append_nil found)

/-! ## Numbers stored otherwise -/

/-- A form with other numbers in place of its own. -/
def Grammar.Form.mapNumbers (f : Number → Number) : Form → Form
  | .value v => .value (v.mapNumbers f)
  | .padded v => .padded (v.mapNumbers f)
  | .member key v => .member key (v.mapNumbers f)
  | .elements items => .elements (items.map (Json.mapNumbers f))
  | .members pairs => .members (pairs.map fun m => (m.1, m.2.mapNumbers f))

/-- Literals that are stored in one way as numbers, and in another as what `f` makes of these. -/
def Restores (mode mode' : Option WideMode) (f : Number → Number) (found : List (List Char)) : Prop :=
  ∀ literal ∈ found, ∀ n, Number.ofLiteral (String.ofList literal) mode = .ok n →
    Number.ofLiteral (String.ofList literal) mode' = .ok (f n)

/-- **A piece of a text and its literals**: they are stored, and to store them otherwise is to put other numbers
in place of those of the form. -/
structure Stores (mode : Option WideMode) (d : ℕ) (w : List Char) (form : Form) (found : List (List Char)) :
    Prop where
  spells : Spells w found
  stored : ∀ literal ∈ found, Literal literal ∧ ∃ n, Number.ofLiteral (String.ofList literal) mode = .ok n
  derives : ∀ mode' f, Restores mode mode' f found → Derives mode' d w (form.mapNumbers f)

variable {f : Number → Number} {v : Json} {key : String} {items : List Json} {members : Members}

theorem stores_silent {form : Form} (h : Silent w) (hd : ∀ mode' f, Derives mode' d w (form.mapNumbers f)) :
    Stores mode d w form [] :=
  ⟨h.spells, List.forall_mem_nil _, fun mode' f _ => hd mode' f⟩

theorem stores_number {n : Number} (h : Literal w) (hn : Number.ofLiteral (String.ofList w) mode = .ok n) :
    Stores mode d w (.value (.number n)) [w] :=
  ⟨spells_literal h, List.forall_mem_singleton.2 ⟨h, n, hn⟩,
    fun _ _ hf => .number h (hf w List.mem_cons_self n hn)⟩

/-- The keys of members settle which of them are kept. -/
theorem firstOfKeys_map (f : Number → Number) (members : Members) :
    firstOfKeys (members.map fun m => (m.1, m.2.mapNumbers f)) =
      (firstOfKeys members).map fun m => (m.1, m.2.mapNumbers f) := by
  induction members with
  | nil => rfl
  | cons m rest ih =>
    rw [List.map_cons, firstOfKeys, firstOfKeys, ih, List.map_cons, List.filter_map]
    rfl

theorem Stores.array (h : Stores mode d w (.elements items) found) :
    Stores mode (d + 1) ('[' :: w ++ [']']) (.value (.array items)) found := by
  refine ⟨?_, h.stored, fun mode' f hf => ?_⟩
  · have hclosed := h.spells.append_cons (c := ']') rfl (silent_cons rfl silent_nil).spells
    rw [List.append_nil] at hclosed
    exact spells_cons rfl hclosed
  · rw [Form.mapNumbers, mapNumbers_array]
    exact .array (h.derives mode' f hf)

theorem Stores.object (h : Stores mode d w (.members members) found) :
    Stores mode (d + 1) ('\x7b' :: w ++ ['\x7d']) (.value (.object (firstOfKeys members))) found := by
  refine ⟨?_, h.stored, fun mode' f hf => ?_⟩
  · have hclosed := h.spells.append_cons (c := '\x7d') rfl (silent_cons rfl silent_nil).spells
    rw [List.append_nil] at hclosed
    exact spells_cons rfl hclosed
  · rw [Form.mapNumbers, mapNumbers_object, ← firstOfKeys_map]
    exact .object (h.derives mode' f hf)

theorem Stores.padded {b' : List Char} (hb : Blanks b) (h : Stores mode d w (.value v) found) (hb' : Blanks b') :
    Stores mode d (b ++ w ++ b') (.padded v) found := by
  refine ⟨?_, h.stored, fun mode' f hf => .padded hb (h.derives mode' f hf) hb'⟩
  rw [List.append_assoc]
  exact (silent_blanks hb).append_spells (h.spells.append_blanks hb')

theorem Stores.member {b' ks : List Char} (hb : Blanks b) (hk : Quoted ks key) (hb' : Blanks b')
    (h : Stores mode d w (.padded v) found) : Stores mode d (b ++ ks ++ b' ++ ':' :: w) (.member key v) found := by
  refine ⟨?_, h.stored, fun mode' f hf => .member hb hk hb' (h.derives mode' f hf)⟩
  have hfront := ((silent_blanks hb).append (silent_quoted hk)).append (silent_blanks hb')
  exact hfront.append_spells (spells_cons rfl h.spells)

/-- Two pieces with a comma between them. -/
theorem Stores.comma {first second whole : Form} (h : Stores mode d w first found)
    (h' : Stores mode d w' second found')
    (hd : ∀ mode' f, Derives mode' d w (first.mapNumbers f) → Derives mode' d w' (second.mapNumbers f) →
      Derives mode' d (w ++ ',' :: w') (whole.mapNumbers f)) :
    Stores mode d (w ++ ',' :: w') whole (found ++ found') := by
  refine ⟨h.spells.append_cons rfl (spells_cons rfl h'.spells), List.forall_mem_append.2 ⟨h.stored, h'.stored⟩, ?_⟩
  intro mode' f hf
  obtain ⟨hfound, hfound'⟩ := List.forall_mem_append.1 hf
  exact hd mode' f (h.derives mode' f hfound) (h'.derives mode' f hfound')

/-- **Every piece of a JSON text has its literals.** By induction on its derivation. -/
theorem exists_stores {form : Form} (h : Derives mode d w form) : ∃ found, Stores mode d w form found := by
  induction h with
  | null => exact ⟨[], stores_silent (fun _ => rfl) fun _ _ => .null⟩
  | true => exact ⟨[], stores_silent (fun _ => rfl) fun _ _ => .true⟩
  | false => exact ⟨[], stores_silent (fun _ => rfl) fun _ _ => .false⟩
  | number hw hn => exact ⟨_, stores_number hw hn⟩
  | string hw => exact ⟨[], stores_silent (silent_quoted hw) fun _ _ => .string hw⟩
  | emptyArray hb =>
    have hsilent := silent_cons (c := '[') rfl ((silent_blanks hb).append (silent_cons (c := ']') rfl silent_nil))
    exact ⟨[], stores_silent hsilent fun _ _ => .emptyArray hb⟩
  | array _ ih =>
    obtain ⟨found, h⟩ := ih
    exact ⟨found, h.array⟩
  | emptyObject hb =>
    have hsilent :=
      silent_cons (c := '\x7b') rfl ((silent_blanks hb).append (silent_cons (c := '\x7d') rfl silent_nil))
    exact ⟨[], stores_silent hsilent fun _ _ => .emptyObject hb⟩
  | object _ ih =>
    obtain ⟨found, h⟩ := ih
    exact ⟨found, h.object⟩
  | padded hb _ hb' ih =>
    obtain ⟨found, h⟩ := ih
    exact ⟨found, h.padded hb hb'⟩
  | member hb hk hb' _ ih =>
    obtain ⟨found, h⟩ := ih
    exact ⟨found, h.member hb hk hb'⟩
  | oneElement _ ih =>
    obtain ⟨found, h⟩ := ih
    exact ⟨found, h.spells, h.stored, fun mode' f hf => .oneElement (h.derives mode' f hf)⟩
  | moreElements _ _ ih ihs =>
    obtain ⟨found, h⟩ := ih
    obtain ⟨found', hs⟩ := ihs
    exact ⟨found ++ found', h.comma hs fun _ _ => .moreElements⟩
  | oneMember _ ih =>
    obtain ⟨found, h⟩ := ih
    exact ⟨found, h.spells, h.stored, fun mode' f hf => .oneMember (h.derives mode' f hf)⟩
  | moreMembers _ _ ih ihs =>
    obtain ⟨found, h⟩ := ih
    obtain ⟨found', hs⟩ := ihs
    exact ⟨found ++ found', h.comma hs fun _ _ => .moreMembers⟩

/-- **The literals of a text are those that what it denotes is stored from.** -/
theorem stores_literals {text : List Char} (h : Denotes mode d text v) :
    Stores mode d text (.padded v) (literals text) := by
  obtain ⟨found, hfound⟩ := exists_stores h
  rwa [hfound.spells.literals_eq]

/-- Digits in a key are no number, and the value of a repeated key is one. -/
example : literals "\x7b\"-1\":[0.5,1e400], \"-1\":-7\x7d".toList = ["0.5".toList, "1e400".toList, "-7".toList] := by
  decide +kernel

end SqlJson.Json
