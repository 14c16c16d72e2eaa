import SqlJson.Json.Writer
import SqlJson.Proofs.Json.StringText
import SqlJson.Proofs.Json.Tree
import SqlJson.Proofs.Number.Rereading

/-!
# Written documents are in the grammar

The two writers differ in the blanks they put between tokens only. Any such layout derives in the
grammar, and denotes the document with its numbers as they read back.

* `Layout`: the blanks at each level of nesting, and those before the value of a member.
* `compactChars_eq`, `prettyChars_eq`: the two writers as layouts.
* `derives_layoutChars`: what a layout derives.
-/

namespace SqlJson.Json

open Grammar

/-- **A layout**: the blanks in front of what stands inside so many containers, and in front of the
value of a member. -/
structure Layout where
  gap : ℕ → List Char
  space : List Char

namespace Layout

/-- No blanks at all. -/
def compact : Layout := ⟨fun _ => [], []⟩

/-- A line for each element and each member. -/
def pretty (indent : ℕ) : Layout := ⟨newline indent, [' ']⟩

/-- A layout has blanks only. -/
def IsBlank (l : Layout) : Prop := (∀ level, Blanks (l.gap level)) ∧ Blanks l.space

mutual

/-- The text of a document that stands inside `level` containers. -/
def chars (l : Layout) : ℕ → Json → List Char
  | _, null => "null".toList
  | _, bool true => "true".toList
  | _, bool false => "false".toList
  | _, number value => value.text.toList
  | _, string value => quotedChars value
  | _, array [] => ['[', ']']
  | level, array (item :: rest) =>
    '[' :: l.gap (level + 1) ++ chars l (level + 1) item ++ charsOfItems l level rest
  | _, object [] => ['\x7b', '\x7d']
  | level, object ((key, value) :: rest) =>
    '\x7b' :: l.gap (level + 1) ++ quotedChars key ++ ':' :: l.space ++ chars l (level + 1) value ++
      charsOfMembers l level rest

/-- The elements after the first one, and the end of the array. -/
def charsOfItems (l : Layout) : ℕ → List Json → List Char
  | level, [] => l.gap level ++ [']']
  | level, item :: rest =>
    ',' :: l.gap (level + 1) ++ chars l (level + 1) item ++ charsOfItems l level rest

/-- The members after the first one, and the end of the object. -/
def charsOfMembers (l : Layout) : ℕ → List (String × Json) → List Char
  | level, [] => l.gap level ++ ['\x7d']
  | level, (key, value) :: rest =>
    ',' :: l.gap (level + 1) ++ quotedChars key ++ ':' :: l.space ++ chars l (level + 1) value ++
      charsOfMembers l level rest

end

end Layout

/-! ## The two writers -/

theorem compactItems_eq {items : List Json} {level : ℕ}
    (h : ∀ item ∈ items, item.compactChars = Layout.compact.chars (level + 1) item) :
    compactItems items = Layout.compact.charsOfItems level items := by
  induction items with
  | nil => rfl
  | cons item rest ih =>
    rw [List.forall_mem_cons] at h
    rw [compactItems, Layout.charsOfItems, h.1, ih h.2]
    rfl

theorem compactMembers_eq {members : Members} {level : ℕ}
    (h : ∀ m ∈ members, m.2.compactChars = Layout.compact.chars (level + 1) m.2) :
    compactMembers members = Layout.compact.charsOfMembers level members := by
  induction members with
  | nil => rfl
  | cons m rest ih =>
    rw [List.forall_mem_cons] at h
    rw [compactMembers, Layout.charsOfMembers, h.1, ih h.2]
    simp [Layout.compact]

theorem compactChars_eq (v : Json) (level : ℕ) : v.compactChars = Layout.compact.chars level v := by
  induction v using induct generalizing level with
  | null => rfl
  | bool b => cases b <;> rfl
  | number n => rfl
  | string s => rfl
  | array items ih =>
    cases items with
    | nil => rfl
    | cons item rest =>
      rw [List.forall_mem_cons] at ih
      rw [compactChars, Layout.chars, ih.1 (level + 1), compactItems_eq fun i hi => ih.2 i hi (level + 1)]
      rfl
  | object members ih =>
    cases members with
    | nil => rfl
    | cons m rest =>
      rw [List.forall_mem_cons] at ih
      rw [compactChars, Layout.chars, ih.1 (level + 1), compactMembers_eq fun i hi => ih.2 i hi (level + 1)]
      simp [Layout.compact]

theorem prettyItems_eq {indent level : ℕ} {items : List Json}
    (h : ∀ item ∈ items, prettyChars indent (level + 1) item = (Layout.pretty indent).chars (level + 1) item) :
    prettyItems indent level items = (Layout.pretty indent).charsOfItems level items := by
  induction items with
  | nil => rfl
  | cons item rest ih =>
    rw [List.forall_mem_cons] at h
    rw [prettyItems, Layout.charsOfItems, h.1, ih h.2]
    rfl

theorem prettyMembers_eq {indent level : ℕ} {members : Members}
    (h : ∀ m ∈ members, prettyChars indent (level + 1) m.2 = (Layout.pretty indent).chars (level + 1) m.2) :
    prettyMembers indent level members = (Layout.pretty indent).charsOfMembers level members := by
  induction members with
  | nil => rfl
  | cons m rest ih =>
    rw [List.forall_mem_cons] at h
    rw [prettyMembers, Layout.charsOfMembers, h.1, ih h.2]
    simp [Layout.pretty]

theorem prettyChars_eq (indent : ℕ) (v : Json) (level : ℕ) :
    prettyChars indent level v = (Layout.pretty indent).chars level v := by
  induction v using induct generalizing level with
  | null => rfl
  | bool b => cases b <;> rfl
  | number n => rfl
  | string s => rfl
  | array items ih =>
    cases items with
    | nil => rfl
    | cons item rest =>
      rw [List.forall_mem_cons] at ih
      rw [prettyChars, Layout.chars, ih.1 (level + 1), prettyItems_eq fun i hi => ih.2 i hi (level + 1)]
      rfl
  | object members ih =>
    cases members with
    | nil => rfl
    | cons m rest =>
      rw [List.forall_mem_cons] at ih
      rw [prettyChars, Layout.chars, ih.1 (level + 1), prettyMembers_eq fun i hi => ih.2 i hi (level + 1)]
      simp [Layout.pretty]

theorem isBlank_compact : Layout.compact.IsBlank := by
  constructor <;> simp [Layout.compact, Blanks]

theorem isBlank_pretty (indent : ℕ) : (Layout.pretty indent).IsBlank := by
  constructor <;> simp +contextual [Layout.pretty, newline, Blanks]

/-! ## Strings -/

theorem hexDigit_digitChar : ∀ n < 16, HexDigit (Nat.digitChar n) n := by decide

/-- **A character is escaped as the grammar has it.** -/
theorem letter_escapeChar (c : Char) : Letter (escapeChar c) c := by
  unfold escapeChar
  split
  -- the escapes of two characters
  iterate 7 exact .short (by decide)
  rename_i hquote hback _ _ _ _ _
  split_ifs with hcontrol
  · refine .unit ?_
    have h := CodeUnit.mk (hexDigit_digitChar 0 (by norm_num)) (hexDigit_digitChar 0 (by norm_num))
      (hexDigit_digitChar (c.toNat / 16) (by omega)) (hexDigit_digitChar (c.toNat % 16) (by omega))
    have hval : 4096 * 0 + 256 * 0 + 16 * (c.toNat / 16) + c.toNat % 16 = c.toNat := by omega
    rw [hval] at h
    exact h
  · exact .plain (by omega) hquote hback

theorem quoted_quotedChars (s : String) : Quoted (quotedChars s) s := by
  have h : ∀ cs : List Char, Letters (cs.flatMap escapeChar) cs := by
    intro cs
    induction cs with
    | nil => exact .nil
    | cons c cs ih => exact .cons (letter_escapeChar c) ih
  have hq := Quoted.mk (h s.toList)
  rw [String.ofList_toList] at hq
  exact hq

/-! ## Containers -/

variable {mode : Option WideMode} {l : Layout} {d level : ℕ} {v w : Json} {f : Number → Number}

theorem firstOfKeys_of_nodup {members : Members} (h : (keys members).Nodup) : firstOfKeys members = members := by
  induction members with
  | nil => rfl
  | cons m rest ih =>
    obtain ⟨key, value⟩ := m
    rw [keys, List.map_cons, List.nodup_cons] at h
    have hfilter : rest.filter (·.1 ≠ key) = rest := by
      rw [List.filter_eq_self]
      intro m hm
      rw [decide_eq_true_iff]
      intro heq
      exact h.1 (List.mem_map.2 ⟨m, hm, heq⟩)
    rw [firstOfKeys, ih h.2, hfilter]

/-- The elements of an array up to its end. The blanks before the end are those behind the last
element. -/
theorem derives_items (hl : l.IsBlank) {rest : List Json}
    (hv : Derives mode d (l.chars (level + 1) v) (.value w))
    (h : ∀ item ∈ rest, Derives mode d (l.chars (level + 1) item) (.value (item.mapNumbers f))) :
    ∃ body, l.charsOfItems level rest = body ++ [']'] ∧
      Derives mode d (l.gap (level + 1) ++ l.chars (level + 1) v ++ body)
        (.elements (w :: rest.map (mapNumbers f))) := by
  induction rest generalizing v w with
  | nil => exact ⟨l.gap level, rfl, .oneElement (.padded (hl.1 _) hv (hl.1 _))⟩
  | cons item rest ih =>
    rw [List.forall_mem_cons] at h
    obtain ⟨body, hbody, hd⟩ := ih h.1 h.2
    refine ⟨',' :: (l.gap (level + 1) ++ l.chars (level + 1) item ++ body), ?_, ?_⟩
    · rw [Layout.charsOfItems, hbody]
      simp
    -- a comma stands right behind its element
    · have hpad := Derives.padded (hl.1 (level + 1)) hv blanks_nil
      rw [List.append_nil] at hpad
      exact .moreElements hpad hd

/-- A member with the blanks in front of it, and those behind it. -/
theorem derives_member (hl : l.IsBlank) (key : String) {b : List Char}
    (hv : Derives mode d (l.chars (level + 1) v) (.value w)) (hb : Blanks b) :
    Derives mode d (l.gap (level + 1) ++ quotedChars key ++ ':' :: l.space ++ l.chars (level + 1) v ++ b)
      (.member key w) := by
  have h := Derives.member (hl.1 (level + 1)) (quoted_quotedChars key) blanks_nil (.padded hl.2 hv hb)
  simpa using h

/-- The members of an object up to its end. -/
theorem derives_members (hl : l.IsBlank) (key : String) {rest : Members}
    (hv : Derives mode d (l.chars (level + 1) v) (.value w))
    (h : ∀ m ∈ rest, Derives mode d (l.chars (level + 1) m.2) (.value (m.2.mapNumbers f))) :
    ∃ body, l.charsOfMembers level rest = body ++ ['\x7d'] ∧
      Derives mode d (l.gap (level + 1) ++ quotedChars key ++ ':' :: l.space ++ l.chars (level + 1) v ++ body)
        (.members ((key, w) :: rest.map fun m => (m.1, m.2.mapNumbers f))) := by
  induction rest generalizing key v w with
  | nil => exact ⟨l.gap level, rfl, .oneMember (derives_member hl key hv (hl.1 _))⟩
  | cons m rest ih =>
    rw [List.forall_mem_cons] at h
    obtain ⟨body, hbody, hd⟩ := ih m.1 h.1 h.2
    refine ⟨',' :: (l.gap (level + 1) ++ quotedChars m.1 ++ ':' :: l.space ++ l.chars (level + 1) m.2 ++ body),
      ?_, ?_⟩
    · rw [Layout.charsOfMembers, hbody]
      simp
    · have hpad := derives_member hl key hv blanks_nil
      rw [List.append_nil] at hpad
      exact .moreMembers hpad hd

/-- **A written document denotes the document, with its numbers as they read back.** -/
theorem derives_layoutChars (hl : l.IsBlank) (level : ℕ) (hn : ∀ n ∈ v.numbers, Number.StoredAs mode n.text (f n))
    (hk : v.UniqueKeys) (hd : v.nesting ≤ d) :
    Derives mode d (l.chars level v) (.value (v.mapNumbers f)) := by
  induction v using induct generalizing d level with
  | null => exact .null
  | bool b =>
    cases b
    · exact .false
    · exact .true
  | number n =>
    obtain ⟨hlit, hstored⟩ := hn n (by simp [numbers])
    rw [← String.ofList_toList (s := n.text)] at hstored
    exact .number hlit hstored
  | string s => exact .string (quoted_quotedChars s)
  | array items ih =>
    rw [forall_numbers_array] at hn
    rw [uniqueKeys_array] at hk
    obtain ⟨d, rfl, hin⟩ := nesting_array_le_iff.1 hd
    rw [mapNumbers_array]
    cases items with
    | nil => exact .emptyArray blanks_nil
    | cons item rest =>
      have h : ∀ i ∈ item :: rest, Derives mode d (l.chars (level + 1) i) (.value (i.mapNumbers f)) :=
        fun i hi => ih i hi (level + 1) (hn i hi) (hk i hi) (hin i hi)
      rw [List.forall_mem_cons] at h
      obtain ⟨body, hbody, helems⟩ := derives_items hl h.1 h.2
      have harr := Derives.array helems
      rw [Layout.chars, hbody]
      simpa using harr
  | object members ih =>
    rw [forall_numbers_object] at hn
    obtain ⟨hnodup, hk⟩ := uniqueKeys_object.1 hk
    obtain ⟨d, rfl, hin⟩ := nesting_object_le_iff.1 hd
    rw [mapNumbers_object]
    cases members with
    | nil => exact .emptyObject blanks_nil
    | cons m rest =>
      have h : ∀ i ∈ m :: rest, Derives mode d (l.chars (level + 1) i.2) (.value (i.2.mapNumbers f)) :=
        fun i hi => ih i hi (level + 1) (hn i hi) (hk i hi) (hin i hi)
      rw [List.forall_mem_cons] at h
      obtain ⟨body, hbody, hmem⟩ := derives_members hl m.1 h.1 h.2
      have hobj := Derives.object hmem
      -- the keys are those of the document, so no member is dropped
      have hfirst : firstOfKeys ((m.1, m.2.mapNumbers f) :: rest.map fun m => (m.1, m.2.mapNumbers f)) =
          (m.1, m.2.mapNumbers f) :: rest.map fun m => (m.1, m.2.mapNumbers f) := by
        apply firstOfKeys_of_nodup
        simpa [keys, Function.comp_def] using hnodup
      rw [hfirst] at hobj
      rw [Layout.chars, hbody]
      simpa using hobj

end SqlJson.Json
