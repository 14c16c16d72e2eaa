import SqlJson.Proofs.Json.Layout
import SqlJson.Proofs.Json.Reading

/-!
# Writing and reading again

A document that was read has unique keys, is nested no deeper than was allowed, and its numbers come
from literals. This is all that is needed to read its texts again.

* `Readable`: what is known of a document that was read.
* `readable_of_read`: documents that were read are so.
* `read_layout`: a document in any layout is read again, with its numbers as they read back.
* `read_written`: writing and reading again loses nothing.
-/

namespace SqlJson.Json

open Grammar

variable {mode : Option WideMode} {d : ℕ} {items : List Json} {members : Members} {v : Json}

/-! ## Documents that were read -/

/-- What is known of a document that was read: its nesting, its keys, and where its numbers come
from. -/
structure Readable (mode : Option WideMode) (d : ℕ) (v : Json) : Prop where
  nesting_le : v.nesting ≤ d
  uniqueKeys : v.UniqueKeys
  stored : ∀ n ∈ v.numbers, ∃ literal, Number.StoredAs mode literal n

theorem readable_array (h : ∀ item ∈ items, Readable mode d item) : Readable mode (d + 1) (.array items) := by
  refine ⟨nesting_array_le_iff.2 ⟨d, rfl, fun i hi => (h i hi).nesting_le⟩, ?_, ?_⟩
  · exact uniqueKeys_array.2 fun i hi => (h i hi).uniqueKeys
  · exact forall_numbers_array.2 fun i hi => (h i hi).stored

theorem readable_object (hk : (keys members).Nodup) (h : ∀ m ∈ members, Readable mode d m.2) :
    Readable mode (d + 1) (.object members) := by
  refine ⟨nesting_object_le_iff.2 ⟨d, rfl, fun m hm => (h m hm).nesting_le⟩, ?_, ?_⟩
  · exact uniqueKeys_object.2 ⟨hk, fun m hm => (h m hm).uniqueKeys⟩
  · exact forall_numbers_object.2 fun m hm => (h m hm).stored

theorem mem_of_mem_firstOfKeys {m : String × Json} (h : m ∈ firstOfKeys members) : m ∈ members := by
  induction members with
  | nil => exact h
  | cons m' rest ih =>
    rw [firstOfKeys] at h
    rcases List.mem_cons.1 h with rfl | h
    · exact List.mem_cons_self
    · exact List.mem_cons_of_mem _ (ih (List.mem_of_mem_filter h))

/-- **Of members with equal keys only one is left.** -/
theorem nodup_keys_firstOfKeys (members : Members) : (keys (firstOfKeys members)).Nodup := by
  induction members with
  | nil => exact List.nodup_nil
  | cons m rest ih =>
    rw [firstOfKeys, keys, List.map_cons, List.nodup_cons]
    constructor
    · intro hmem
      obtain ⟨m', hm', heq⟩ := List.mem_map.1 hmem
      have hne := (List.mem_filter.1 hm').2
      rw [decide_eq_true_iff] at hne
      exact hne heq
    · exact ih.sublist (List.filter_sublist.map _)

/-- A property of every document in a form. -/
def Grammar.Form.Holds (P : Json → Prop) : Form → Prop
  | .value v => P v
  | .padded v => P v
  | .member _ v => P v
  | .elements items => ∀ item ∈ items, P item
  | .members members => ∀ m ∈ members, P m.2

theorem readable_of_derives {cs : List Char} {form : Form} (h : Derives mode d cs form) :
    form.Holds (Readable mode d) := by
  -- documents without parts and without numbers
  have scalar : ∀ {d v}, v.nesting = 0 → v.UniqueKeys → v.numbers = [] → Readable mode d v := by
    intro d v hd hk hn
    exact ⟨by omega, hk, by simp [hn]⟩
  induction h with
  | null | true | false | string => exact scalar rfl (by simp [UniqueKeys]) rfl
  | @number d cs n hlit hn =>
    refine ⟨Nat.zero_le _, by simp [UniqueKeys], ?_⟩
    intro m hm
    obtain rfl : m = n := by simpa [numbers] using hm
    exact ⟨_, by rw [String.toList_ofList]; exact hlit, hn⟩
  | emptyArray => exact readable_array (by simp)
  | array _ ih => exact readable_array ih
  | emptyObject => exact readable_object List.nodup_nil (by simp)
  | object _ ih =>
    exact readable_object (nodup_keys_firstOfKeys _) fun m hm => ih m (mem_of_mem_firstOfKeys hm)
  | padded _ _ _ ih => exact ih
  | member _ _ _ _ ih => exact ih
  | oneElement _ ih => exact List.forall_mem_singleton.2 ih
  | moreElements _ _ ih ihs => exact List.forall_mem_cons.2 ⟨ih, ihs⟩
  | oneMember _ ih => exact List.forall_mem_singleton.2 ih
  | moreMembers _ _ ih ihs => exact List.forall_mem_cons.2 ⟨ih, ihs⟩

theorem readable_of_read {text : String} (h : read ⟨mode, d⟩ text = .ok v) : Readable mode d v :=
  readable_of_derives (read_eq_ok_iff_denotes.1 h)

/-! ## Reading again -/

/-- **A document in any layout is read**, with its numbers as they read back. -/
theorem read_layout {l : Layout} {f : Number → Number} (hl : l.IsBlank) (hd : v.nesting ≤ d)
    (hk : v.UniqueKeys) (hn : ∀ n ∈ v.numbers, Number.StoredAs mode n.text (f n)) :
    read ⟨mode, d⟩ (String.ofList (l.chars 0 v)) = .ok (v.mapNumbers f) := by
  rw [read_eq_ok_iff_denotes, String.toList_ofList]
  have h := Derives.padded blanks_nil (derives_layoutChars hl 0 hn hk hd) blanks_nil
  rw [List.nil_append, List.append_nil] at h
  exact h

/-- Both writers write layouts. -/
theorem read_compact_and_pretty {f : Number → Number} (indent : ℕ) (hd : v.nesting ≤ d)
    (hk : v.UniqueKeys) (hn : ∀ n ∈ v.numbers, Number.StoredAs mode n.text (f n)) :
    read ⟨mode, d⟩ v.compact = .ok (v.mapNumbers f) ∧
      read ⟨mode, d⟩ (v.pretty indent) = .ok (v.mapNumbers f) := by
  constructor
  · rw [compact, compactChars_eq v 0]
    exact read_layout isBlank_compact hd hk hn
  · rw [pretty, prettyChars_eq]
    exact read_layout (isBlank_pretty indent) hd hk hn

/-- **Writing and reading again loses nothing.** A document read in a mode that does not round is
read again, in the same mode and to the same depth, from its compact text and from its pretty text
with any indentation: the same tree, with each number stored as it was. -/
theorem read_written {mode : Option WideMode} {maxDepth : ℕ} {text : String} {v : Json} (indent : ℕ)
    (hm : mode ≠ some .round) (h : read ⟨mode, maxDepth⟩ text = .ok v) :
    read ⟨mode, maxDepth⟩ v.compact = .ok v ∧ read ⟨mode, maxDepth⟩ (v.pretty indent) = .ok v := by
  obtain ⟨hd, hk, hs⟩ := readable_of_read h
  have hn : ∀ n ∈ v.numbers, Number.StoredAs mode n.text (id n) := by
    intro n hmem
    obtain ⟨literal, hlit⟩ := hs n hmem
    exact Number.storedAs_text hm hlit
  have hself : v.mapNumbers id = v := mapNumbers_eq_self fun _ _ => rfl
  have hread := read_compact_and_pretty indent hd hk hn
  rw [hself] at hread
  exact hread

/-- A text with blanks that neither writer writes. -/
theorem read_written_blanks :
    read ⟨some .exact, 2⟩ "[ -7, \x7b\"a\" : true\x7d ]" =
        .ok (.array [.number (.int (-7)), .object [("a", .bool true)]]) ∧
      read ⟨some .exact, 2⟩ (compact (.array [.number (.int (-7)), .object [("a", .bool true)]])) =
        .ok (.array [.number (.int (-7)), .object [("a", .bool true)]]) := by
  have blank : Blanks [' '] := by simp [Blanks]
  have hmember : Derives (some .exact) 0 "\"a\" : true".toList (.members [("a", .bool true)]) :=
    .oneMember (.member blanks_nil (quoted_quotedChars "a") blank (.padded blank .true blanks_nil))
  have hobject : Derives (some .exact) 1 "\x7b\"a\" : true\x7d".toList (.value (.object [("a", .bool true)])) :=
    .object hmember
  have hnumber : Derives (some .exact) 1 "-7".toList (.value (.number (.int (-7)))) := by
    obtain ⟨hlit, hstored⟩ : Number.StoredAs (some .exact) "-7" (.int (-7)) :=
      Number.storedAs_toString (Number.ofInt?_toInt (-7))
    exact .number hlit hstored
  have harray : Derives (some .exact) 2 "[ -7, \x7b\"a\" : true\x7d ]".toList
      (.value (.array [.number (.int (-7)), .object [("a", .bool true)]])) :=
    .array (.moreElements (.padded blank hnumber blanks_nil) (.oneElement (.padded blank hobject blank)))
  have hread : read ⟨some .exact, 2⟩ "[ -7, \x7b\"a\" : true\x7d ]" =
      .ok (.array [.number (.int (-7)), .object [("a", .bool true)]]) :=
    read_eq_ok_iff_denotes.2 (.padded blanks_nil harray blanks_nil)
  exact ⟨hread, (read_written 0 (by decide) hread).1⟩

end SqlJson.Json
