import SqlJson.Proofs.Text.Bytes
import SqlJson.Proofs.Text.Runs

/-!
# Places in a text

A scanner keeps the number of bytes it has read. Its invariant is that this is a place between two characters, with a
known text after it.

* `Place`: **that invariant**.
* `Leads`, `Place.exists_leads`: the byte at a place tells which character below `128` comes next, or that none does.
* `slice`: the text between two places, which have to be between characters.
* `skipWhile`: the place after a run of bytes.
* `Place.slice_eq`, `Place.skipWhile`: what stands between two places can be cut out, and a run of bytes ends at one.
-/

namespace SqlJson.Text

variable {p : Char → Bool} {b c d : Char} {cs run rest : List Char} {text : String} {i j k n : ℕ}

/-- **A place between characters**: so many bytes come before it, and these characters after it. -/
def Place (text : String) (i : Nat) (rest : List Char) : Prop :=
  ∃ front, text.toList = front ++ rest ∧ byteSize front = i

theorem place_zero (text : String) : Place text 0 text.toList := ⟨[], rfl, rfl⟩

theorem place_end (text : String) : Place text text.utf8ByteSize [] :=
  ⟨text.toList, (List.append_nil _).symm, byteSize_toList text⟩

theorem Place.add (h : Place text i (run ++ rest)) : Place text (i + byteSize run) rest := by
  obtain ⟨front, htext, rfl⟩ := h
  exact ⟨front ++ run, by rw [htext, List.append_assoc], byteSize_append front run⟩

/-- A character below `128` is one byte long. -/
theorem Place.next (h : Place text i (c :: rest)) (hc : c.toNat < 128) : Place text (i + 1) rest := by
  have hsize : byteSize [c] = 1 := by
    rw [← length_bytes, bytes, List.flatMap_singleton, encode_of_lt hc, List.length_singleton]
  have hadd : Place text (i + byteSize [c]) rest := h.add
  rwa [hsize] at hadd

theorem Place.size (h : Place text i rest) : i + byteSize rest = text.utf8ByteSize := by
  obtain ⟨front, htext, rfl⟩ := h
  rw [← byteSize_toList, htext, byteSize_append]

/-- A place is known from the text after it. -/
theorem Place.eq_sub (h : Place text i rest) : i = byteSize text.toList - byteSize rest := by
  have hsize := h.size
  rw [byteSize_toList]
  omega

theorem Place.eq_add (h : Place text i (run ++ rest)) (h' : Place text j rest) : j = i + byteSize run := by
  rw [h'.eq_sub, h.add.eq_sub]

/-- Only nothing leaves a place where it is. -/
theorem Place.eq_iff (h : Place text i (run ++ rest)) (h' : Place text j rest) : j = i ↔ run = [] := by
  rw [h.eq_add h', ← byteSize_eq_zero_iff]
  omega

/-- A place is before the end where something is left. -/
theorem Place.lt_iff (h : Place text i cs) : i < text.utf8ByteSize ↔ cs ≠ [] := by
  have hsize := h.size
  rw [ne_eq, ← byteSize_eq_zero_iff]
  omega

/-! ## The byte at a place -/

theorem Place.byteAt?_add (h : Place text i rest) (k : ℕ) : byteAt? text (i + k) = (bytes rest)[k]? := by
  obtain ⟨front, htext, rfl⟩ := h
  rw [byteAt?_eq, htext, bytes_append, ← length_bytes, List.getElem?_append_right (Nat.le_add_right _ _),
    Nat.add_sub_cancel_left]

theorem Place.byteAt?_nil (h : Place text i []) : byteAt? text i = none := h.byteAt?_add 0

theorem Place.byteAt?_of_lt (h : Place text i (c :: rest)) (hc : c.toNat < 128) : byteAt? text i = some c := by
  have hbyte := h.byteAt?_add 0
  rwa [bytes, List.flatMap_cons, encode_of_lt hc] at hbyte

/-- **No byte of a character of `128` or more** is a character below. -/
theorem Place.exists_byteAt? (h : Place text i (c :: rest)) (hc : 128 ≤ c.toNat) (hk : k < c.utf8Size) :
    ∃ b, byteAt? text (i + k) = some b ∧ 128 ≤ b.toNat := by
  have hlength : k < (encode c).length := by rwa [length_encode]
  refine ⟨(encode c)[k], ?_, le_of_mem_encode hc (List.getElem_mem hlength)⟩
  rw [h.byteAt?_add, bytes, List.flatMap_cons, List.getElem?_append_left hlength, List.getElem?_eq_getElem hlength]

/-- **The first byte of a character**: the character itself, or a byte of `128` or more. -/
def Leads (b c : Char) : Prop := c.toNat < 128 ∧ b = c ∨ 128 ≤ c.toNat ∧ 128 ≤ b.toNat

theorem Place.exists_leads (h : Place text i (c :: rest)) : ∃ b, byteAt? text i = some b ∧ Leads b c := by
  rcases Nat.lt_or_ge c.toNat 128 with hc | hc
  · exact ⟨c, h.byteAt?_of_lt hc, .inl ⟨hc, rfl⟩⟩
  · obtain ⟨b, hb, hb'⟩ := h.exists_byteAt? hc c.utf8Size_pos
    exact ⟨b, hb, .inr ⟨hc, hb'⟩⟩

/-- A character below `128` is told apart by its byte. -/
theorem Leads.eq_iff (h : Leads b c) (hd : d.toNat < 128) : b = d ↔ c = d := by
  rcases h with ⟨-, rfl⟩ | ⟨hc, hb⟩
  · exact Iff.rfl
  · refine iff_of_false ?_ ?_
    · rintro rfl
      omega
    · rintro rfl
      omega

/-- The byte at a place is a character below `128` where the text goes on with it. -/
theorem Place.byteAt?_eq_iff (h : Place text i cs) (hd : d.toNat < 128) :
    byteAt? text i = some d ↔ cs.head? = some d := by
  cases cs with
  | nil => rw [h.byteAt?_nil, List.head?_nil]
  | cons c cs =>
    obtain ⟨b, hb, hlead⟩ := h.exists_leads
    rw [hb, List.head?_cons, Option.some_inj, Option.some_inj, hlead.eq_iff hd]

theorem Place.byteAt?_ne (h : Place text i cs) (hd : d.toNat < 128) (hne : ∀ tail, cs = d :: tail → False) :
    byteAt? text i ≠ some d := by
  rw [ne_eq, h.byteAt?_eq_iff hd]
  intro hhead
  obtain ⟨tail, rfl⟩ := List.head?_eq_some_iff.1 hhead
  exact hne tail rfl

/-- A class that is the same for all bytes of `128` and more. -/
def Uniform (p : Char → Bool) : Prop := ∀ b c : Char, 128 ≤ b.toNat → 128 ≤ c.toNat → p b = p c

/-- A class of characters below `128` only. -/
theorem uniform_of_lt (hp : ∀ c, p c = true → c.toNat < 128) : Uniform p := by
  have hnone (c : Char) (hc : 128 ≤ c.toNat) : p c = false := by
    by_contra h
    have hlt := hp c (by simpa using h)
    omega
  intro b c hb hc
  rw [hnone b hb, hnone c hc]

theorem lt_of_isDigit (h : c.isDigit) : c.toNat < 128 := by
  have hc := Char.isDigit_iff_toNat.1 h
  have h9 : '9'.toNat = 57 := rfl
  omega

theorem uniform_isDigit : Uniform Char.isDigit := uniform_of_lt fun _ => lt_of_isDigit

theorem Leads.uniform (h : Leads b c) (hp : Uniform p) : p b = p c := by
  rcases h with ⟨-, rfl⟩ | ⟨hc, hb⟩
  · rfl
  · exact hp b c hb hc

theorem Place.any_byteAt? (h : Place text i cs) (hp : Uniform p) : (byteAt? text i).any p = cs.head?.any p := by
  cases cs with
  | nil => rw [h.byteAt?_nil, List.head?_nil]
  | cons c cs =>
    obtain ⟨b, hb, hlead⟩ := h.exists_leads
    rw [hb, List.head?_cons, Option.any_some, Option.any_some, hlead.uniform hp]

/-! ## Cutting -/

/-- **The text between two places.** Both have to be between characters, the first not behind the second. -/
def slice (text : String) (a b : Nat) : Checked String :=
  if h : a ≤ b ∧ String.Pos.Raw.IsValid text ⟨a⟩ ∧ String.Pos.Raw.IsValid text ⟨b⟩ then
    .ok (String.extract (text.pos ⟨a⟩ h.2.1) (text.pos ⟨b⟩ h.2.2))
  else .error .outside

theorem Place.isValid (h : Place text i rest) : String.Pos.Raw.IsValid text ⟨i⟩ := by
  obtain ⟨front, htext, rfl⟩ := h
  rw [String.Pos.Raw.isValid_iff_exists_append]
  refine ⟨String.ofList front, String.ofList rest, ?_, ?_⟩
  · rw [← String.ofList_append, ← htext, String.ofList_toList]
  · have hsize := byteSize_toList (String.ofList front)
    rw [String.toList_ofList] at hsize
    rw [hsize]
    rfl

theorem size_utf8Encode (cs : List Char) : cs.utf8Encode.size = byteSize cs := by
  have hsize := byteSize_toList (String.ofList cs)
  rw [String.toList_ofList] at hsize
  rw [hsize, ← String.toByteArray_ofList]
  rfl

/-- **What stands between two places** is cut out. -/
theorem Place.slice_eq (h : Place text i (run ++ rest)) (h' : Place text j rest) :
    slice text i j = .ok (String.ofList run) := by
  have hend := h.eq_add h'
  have hcut : i ≤ j ∧ String.Pos.Raw.IsValid text ⟨i⟩ ∧ String.Pos.Raw.IsValid text ⟨j⟩ :=
    ⟨by omega, h.isValid, h'.isValid⟩
  obtain ⟨front, htext, rfl⟩ := h
  have hbytes : text.toByteArray = front.utf8Encode ++ (run.utf8Encode ++ rest.utf8Encode) := by
    rw [← String.utf8Encode_toList, htext, List.utf8Encode_append, List.utf8Encode_append]
  rw [slice, dif_pos hcut, Except.ok.injEq, ← String.toByteArray_inj, String.toByteArray_extract,
    String.toByteArray_ofList, hbytes]
  change ByteArray.extract _ (byteSize front) j = _
  rw [hend, ← size_utf8Encode front, ← size_utf8Encode run, ← Nat.add_zero front.utf8Encode.size, Nat.add_assoc,
    ByteArray.extract_append_size_add, Nat.zero_add]
  exact ByteArray.extract_append_eq_left rfl

/-- **The bytes from a place on.** -/
def bytesFrom (text : String) (i : Nat) : Checked (List Char) :=
  if String.Pos.Raw.IsValid text ⟨i⟩ then .ok ((bytes text.toList).drop i) else .error .outside

theorem Place.bytesFrom_eq (h : Place text i rest) : bytesFrom text i = .ok (bytes rest) := by
  rw [bytesFrom, if_pos h.isValid]
  obtain ⟨front, htext, rfl⟩ := h
  rw [htext, bytes_append, ← length_bytes, List.drop_left]

/-! ## Runs -/

/-- **The place after a run of bytes** of a class. -/
def skipWhile (p : Char → Bool) (text : String) (i : Nat) : Nat :=
  if i < text.utf8ByteSize ∧ (byteAt? text i).any p then skipWhile p text (i + 1) else i
termination_by text.utf8ByteSize - i

theorem lt_of_byteAt? (h : byteAt? text i = some b) : i < text.utf8ByteSize := by
  rw [byteAt?_eq] at h
  obtain ⟨hlt, -⟩ := List.getElem?_eq_some_iff.1 h
  rwa [length_bytes, byteSize_toList] at hlt

theorem skipWhile_of_pos (h : byteAt? text i = some b) (hb : p b = true) :
    skipWhile p text i = skipWhile p text (i + 1) := by
  rw [skipWhile, if_pos ⟨lt_of_byteAt? h, by rw [h]; exact hb⟩]

theorem skipWhile_of_neg (h : byteAt? text i = some b) (hb : p b = false) : skipWhile p text i = i := by
  rw [skipWhile, if_neg]
  rw [h]
  simp [hb]

theorem skipWhile_of_none (h : byteAt? text i = none) : skipWhile p text i = i := by
  rw [skipWhile, if_neg]
  rw [h]
  simp

/-- All bytes of a character are skipped. -/
theorem skipWhile_add (h : ∀ k < n, ∃ b, byteAt? text (i + k) = some b ∧ p b = true) :
    skipWhile p text i = skipWhile p text (i + n) := by
  induction n with
  | zero => rfl
  | succ n ih =>
    obtain ⟨b, hb, hp⟩ := h n (Nat.lt_succ_self n)
    rw [ih fun k hk => h k (Nat.lt_succ_of_lt hk), skipWhile_of_pos hb hp, Nat.add_assoc]

/-- **A run of bytes is a run of characters.** -/
theorem Place.skipWhile (hp : Uniform p) (h : Place text i cs) : Place text (skipWhile p text i) (cs.dropWhile p) := by
  induction cs generalizing i with
  | nil => rwa [skipWhile_of_none h.byteAt?_nil]
  | cons c cs ih =>
    obtain ⟨b, hb, hlead⟩ := h.exists_leads
    have hsame := hlead.uniform hp
    cases hclass : p c with
    | false => rwa [skipWhile_of_neg hb (hsame.trans hclass), List.dropWhile_cons_of_neg (by simp [hclass])]
    | true =>
      rw [List.dropWhile_cons_of_pos hclass]
      rcases hlead with ⟨hc, rfl⟩ | ⟨hc, -⟩
      · rw [skipWhile_of_pos hb hclass]
        exact ih (h.next hc)
      · have hall : ∀ k < c.utf8Size, ∃ b, byteAt? text (i + k) = some b ∧ p b = true := by
          intro k hk
          obtain ⟨b, hb, hb'⟩ := h.exists_byteAt? hc hk
          exact ⟨b, hb, (hp b c hb' hc).trans hclass⟩
        have hafter : Place text (i + byteSize [c]) cs := Place.add h
        rw [skipWhile_add hall]
        exact ih hafter

/-- A run of characters is cut out. -/
theorem Place.slice_run (hp : Uniform p) (h : Place text i cs) :
    slice text i (Text.skipWhile p text i) = .ok (String.ofList (cs.takeWhile p)) := by
  have hsplit : Place text i (cs.takeWhile p ++ cs.dropWhile p) := by rwa [List.takeWhile_append_dropWhile]
  exact hsplit.slice_eq (h.skipWhile hp)

/-- **A run of bytes, and what stops it**: the run is cut out, and ends at a place. -/
theorem Place.exists_run (hp : Uniform p) (h : Place text i cs) : ∃ run rest, cs = run ++ rest ∧ (∀ c ∈ run, p c) ∧
    Stops p rest ∧ Place text (Text.skipWhile p text i) rest ∧
    slice text i (Text.skipWhile p text i) = .ok (String.ofList run) :=
  ⟨cs.takeWhile p, cs.dropWhile p, List.takeWhile_append_dropWhile.symm, List.all_eq_true.1 List.all_takeWhile,
    stops_dropWhile cs, h.skipWhile hp, h.slice_run hp⟩

end SqlJson.Text
