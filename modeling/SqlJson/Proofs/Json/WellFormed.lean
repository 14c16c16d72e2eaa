import SqlJson.Json.StripNulls
import SqlJson.Path.Basic
import SqlJson.Proofs.Json.RoundTrip
import SqlJson.Proofs.Number.WellFormed

/-!
# Well-formed documents

A document is well formed if no object repeats a key and all its numbers are well formed. What is done with
documents needs to know little of their numbers, so it is proved for documents over any kind of numbers.

* `Over`: documents with unique keys and numbers of a given kind, `IsWellFormed` among them.
* `Over.lookup`: the parts of a document.
* `over_ofMembers`: a document built from members, whatever their keys.
* `over_stripNulls`: a document without its nulls.
* `isPlain_of_read`: documents that were read in a mode.
-/

namespace SqlJson.Json

variable {Q R : Number → Prop} {v child : Json} {items : List Json} {members : Members} {n : Number}

/-- **A document over given numbers**: no object repeats a key, and each number is one of them. -/
def Over (Q : Number → Prop) (v : Json) : Prop := v.UniqueKeys ∧ ∀ n ∈ v.numbers, Q n

/-- **A well-formed document**: no object repeats a key, and all numbers are well formed. -/
def IsWellFormed (v : Json) : Prop := v.Over Number.IsWellFormed

/-- A document in which no number is kept word for word. -/
def IsWideFree (v : Json) : Prop := ∀ n ∈ v.numbers, n.isWide = false

theorem Over.mono (hQ : ∀ n, Q n → R n) (h : v.Over Q) : v.Over R := ⟨h.1, fun n hn => hQ n (h.2 n hn)⟩

/-- The documents over plain numbers are the well-formed ones that keep no number word for word. -/
theorem over_isPlain_iff : v.Over Number.IsPlain ↔ v.IsWellFormed ∧ v.IsWideFree := by
  constructor
  · intro h
    exact ⟨h.mono fun n hn => hn.1, fun n hn => (h.2 n hn).2⟩
  · rintro ⟨h, hwide⟩
    exact ⟨h.1, fun n hn => ⟨h.2 n hn, hwide n hn⟩⟩

/-! ## Forms -/

theorem over_null : null.Over Q := ⟨trivial, by simp [numbers]⟩

theorem over_bool (b : Bool) : (bool b).Over Q := ⟨trivial, by simp [numbers]⟩

theorem over_string (s : String) : (string s).Over Q := ⟨trivial, by simp [numbers]⟩

theorem over_number (h : Q n) : (number n).Over Q := ⟨trivial, by simpa [numbers] using h⟩

theorem over_array : (array items).Over Q ↔ ∀ item ∈ items, item.Over Q := by
  rw [Over, uniqueKeys_array, forall_numbers_array, ← forall₂_and]
  rfl

theorem over_object : (object members).Over Q ↔ (keys members).Nodup ∧ ∀ m ∈ members, m.2.Over Q := by
  rw [Over, uniqueKeys_object, forall_numbers_object, and_assoc, ← forall₂_and]
  rfl

/-! ## Parts -/

theorem Over.get? {key : String} (h : v.Over Q) (hc : v.get? key = some child) : child.Over Q := by
  cases v with
  | object members =>
    obtain ⟨before, after, rfl, -⟩ := List.lookup_eq_some_iff.1 hc
    exact (over_object.1 h).2 (key, child) (List.mem_append_right before List.mem_cons_self)
  | _ => cases hc

theorem Over.item? {index : ℕ} (h : v.Over Q) (hc : v.item? index = some child) : child.Over Q := by
  cases v with
  | array items => exact over_array.1 h child (List.mem_of_getElem? hc)
  | _ => cases hc

theorem Over.child? {step : Step} (h : v.Over Q) (hc : step.child? v = some child) : child.Over Q := by
  cases step with
  | member key | quoted key => exact h.get? hc
  | index n => exact h.item? hc

theorem Over.follow {steps : List Step} (h : v.Over Q) (hc : Path.follow steps v = some child) : child.Over Q := by
  induction steps generalizing v with
  | nil =>
    cases hc
    exact h
  | cons step rest ih =>
    obtain ⟨next, hnext, hrest⟩ := Option.bind_eq_some_iff.1 hc
    exact ih (h.child? hnext) hrest

/-- **What lookup finds** in a document is over the same numbers. -/
theorem Over.lookup {path : Path} (h : v.Over Q) (hc : path.lookup v = some child) : child.Over Q := h.follow hc

theorem Over.items? (h : v.Over Q) (hi : v.items? = some items) : ∀ item ∈ items, item.Over Q := by
  cases v with
  | array _ =>
    cases hi
    exact over_array.1 h
  | _ => cases hi

/-! ## Documents that are built -/

/-- **Members with repeated keys** may make a document: the first of them is kept. -/
theorem over_ofMembers (h : ∀ m ∈ members, m.2.Over Q) : (ofMembers members).Over Q := by
  rw [ofMembers_eq, over_object]
  exact ⟨nodup_keys_firstOfKeys members, fun m hm => h m (mem_of_mem_firstOfKeys hm)⟩

theorem keys_stripMembers_sublist (s : Stripping) (members : Members) :
    (keys (stripMembers s members)).Sublist (keys members) := by
  induction members with
  | nil => rw [stripMembers]
  | cons m rest ih =>
    obtain ⟨key, value⟩ := m
    rw [stripMembers]
    split_ifs
    · exact ih.cons_cons key
    · exact ih.cons key

mutual

/-- **A document without its nulls** is over the same numbers. -/
theorem over_stripNulls (s : Stripping) : ∀ v : Json, v.Over Q → (v.stripNulls s).Over Q
  | null, h => h
  | bool _, h => h
  | number _, h => h
  | string _, h => h
  | array items, h => by
    rw [stripNulls, over_array]
    exact over_stripItems s items (over_array.1 h)
  | object members, h => by
    obtain ⟨hkeys, hmembers⟩ := over_object.1 h
    rw [stripNulls, over_object]
    exact ⟨hkeys.sublist (keys_stripMembers_sublist s members), over_stripMembers s members hmembers⟩

theorem over_stripItems (s : Stripping) : ∀ items : List Json, (∀ item ∈ items, item.Over Q) →
    ∀ item ∈ stripItems s items, item.Over Q
  | [], h => by
    rw [stripItems]
    exact h
  | item :: rest, h => by
    obtain ⟨hitem, hrest⟩ := List.forall_mem_cons.1 h
    rw [stripItems]
    split_ifs
    · exact over_stripItems s rest hrest
    · exact List.forall_mem_cons.2 ⟨over_stripNulls s item hitem, over_stripItems s rest hrest⟩

theorem over_stripMembers (s : Stripping) : ∀ members : List (String × Json), (∀ m ∈ members, m.2.Over Q) →
    ∀ m ∈ stripMembers s members, m.2.Over Q
  | [], h => by
    rw [stripMembers]
    exact h
  | (key, value) :: rest, h => by
    obtain ⟨hvalue, hrest⟩ := List.forall_mem_cons.1 h
    rw [stripMembers]
    split_ifs
    · exact List.forall_mem_cons.2 ⟨over_stripNulls s value hvalue, over_stripMembers s rest hrest⟩
    · exact over_stripMembers s rest hrest

end

/-! ## Documents that were read -/

variable {maxDepth : ℕ} {text : String}

/-- **A document read in a mode** keeps no number word for word. -/
theorem isPlain_of_read {mode : WideMode} (h : read ⟨some mode, maxDepth⟩ text = .ok v) :
    v.Over Number.IsPlain := by
  have hread := readable_of_read h
  refine ⟨hread.uniqueKeys, ?_⟩
  intro n hn
  obtain ⟨literal, hstored⟩ := hread.stored n hn
  exact Number.isPlain_of_ofLiteral hstored.2

end SqlJson.Json
