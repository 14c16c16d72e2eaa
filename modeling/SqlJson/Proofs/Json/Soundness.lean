import SqlJson.Proofs.Json.Forms

/-!
# What is read derives in the grammar

The readers of values, elements and members call one another with less fuel, so their soundness is
one statement about all three (`reading_sound`), by induction on the fuel. A reader that stands
inside `depth` containers takes off what derives with the depth that is left.
-/

namespace SqlJson.Json

open Grammar

variable {options : Options} {mode : Option WideMode} {fuel depth d : ℕ}
  {b cs w rest : List Char} {v : Json}

theorem readKeyword_eq_ok_iff {keyword : String} {value : Json} :
    readKeyword keyword value cs = .ok (v, rest) ↔ cs = keyword.toList ++ rest ∧ v = value := by
  unfold readKeyword
  split_ifs with h
  · obtain ⟨tail, rfl⟩ := List.isPrefixOf_iff_prefix.1 h
    rw [← String.length_toList, List.drop_left]
    simp [eq_comm, and_comm]
  · simp only [fail_ne_ok, false_iff, not_and]
    rintro rfl
    exact absurd (List.isPrefixOf_iff_prefix.2 (List.prefix_append _ _)) h

/-- What the reader of values takes off a text is a value of the grammar. -/
def ValueSound (options : Options) (fuel : ℕ) : Prop :=
  ∀ {depth cs v rest}, readValue options fuel depth cs = .ok (v, rest) →
    ∃ w, cs = w ++ rest ∧ Derives options.mode (options.maxDepth - depth) w (.value v)

/-- What the reader of elements takes off a text is elements of the grammar, and a bracket. -/
def ItemsSound (options : Options) (fuel : ℕ) : Prop :=
  ∀ {depth before cs v rest}, readItems options fuel depth before cs = .ok (v, rest) →
    ∃ w items, cs = w ++ ']' :: rest ∧
      Derives options.mode (options.maxDepth - depth) w (.elements items) ∧
      v = .array (before.reverse ++ items)

/-- What the reader of members takes off a text is members of the grammar, and a brace. -/
def MembersSound (options : Options) (fuel : ℕ) : Prop :=
  ∀ {depth before cs v rest}, readMembers options fuel depth before cs = .ok (v, rest) →
    ∃ w members, cs = w ++ '\x7d' :: rest ∧
      Derives options.mode (options.maxDepth - depth) w (.members members) ∧
      v = .object (members.foldl (fun kept m => Members.add kept m.1 m.2) before)

theorem ValueSound.padded (hs : ValueSound options fuel)
    (h : readPadded options fuel depth cs = .ok (v, rest)) :
    ∃ w, cs = w ++ rest ∧ Derives options.mode (options.maxDepth - depth) w (.padded v) := by
  unfold readPadded at h
  obtain ⟨⟨value, r⟩, hv, h'⟩ := Except.bind_eq_ok_iff.1 h
  cases h'
  obtain ⟨b₁, hb₁, hcs⟩ := exists_blanks cs
  obtain ⟨b₂, hb₂, hr⟩ := exists_blanks r
  obtain ⟨w, hw, hd⟩ := hs hv
  refine ⟨b₁ ++ w ++ b₂, ?_, .padded hb₁ hd hb₂⟩
  conv_lhs => rw [hcs, hw, hr]
  simp

theorem ValueSound.member (hs : ValueSound options fuel) {m : String × Json}
    (h : readMember options fuel depth cs = .ok (m, rest)) :
    ∃ w, cs = w ++ rest ∧ Derives options.mode (options.maxDepth - depth) w (.member m.1 m.2) := by
  unfold readMember at h
  obtain ⟨⟨key, r⟩, hk, h'⟩ := Except.bind_eq_ok_iff.1 h
  obtain ⟨b₁, hb₁, hcs⟩ := exists_blanks cs
  obtain ⟨b₂, hb₂, hr⟩ := exists_blanks r
  -- the key is read at its quote, behind the blanks in front of the member
  obtain ⟨ks, hks, hq⟩ : ∃ ks, skipBlanks cs = ks ++ r ∧ Quoted ks key := by
    unfold readKey at hk
    split at hk
    · obtain ⟨ks, hq, hks⟩ := readString_eq_ok_iff.1 hk
      rename_i heq
      exact ⟨ks, heq.trans hks, hq⟩
    · exact absurd hk fail_ne_ok
  simp only at h'
  split at h'
  · rename_i tail heq
    obtain ⟨⟨value, r'⟩, hv, h''⟩ := Except.bind_eq_ok_iff.1 h'
    cases h''
    obtain ⟨w, rfl, hd⟩ := hs.padded hv
    refine ⟨b₁ ++ ks ++ b₂ ++ ':' :: w, ?_, .member hb₁ hq hb₂ hd⟩
    conv_lhs => rw [hcs, hks, hr, heq]
    simp
  · exact absurd h' fail_ne_ok

theorem itemsSound_succ (hv : ValueSound options fuel) (hi : ItemsSound options fuel) :
    ItemsSound options (fuel + 1) := by
  intro depth before cs v rest h
  rw [readItems_succ] at h
  obtain ⟨⟨value, r⟩, hp, h'⟩ := Except.bind_eq_ok_iff.1 h
  obtain ⟨w, rfl, hd⟩ := hv.padded hp
  simp only at h'
  split at h'
  · exact absurd h' fail_ne_ok
  · obtain ⟨w', items, rfl, hd', rfl⟩ := hi h'
    exact ⟨w ++ ',' :: w', value :: items, by simp, .moreElements hd hd', by simp⟩
  · cases h'
    exact ⟨w, [value], rfl, .oneElement hd, by simp⟩
  · exact absurd h' fail_ne_ok

theorem membersSound_succ (hv : ValueSound options fuel) (hm : MembersSound options fuel) :
    MembersSound options (fuel + 1) := by
  intro depth before cs v rest h
  rw [readMembers_succ] at h
  obtain ⟨⟨⟨key, value⟩, r⟩, hp, h'⟩ := Except.bind_eq_ok_iff.1 h
  obtain ⟨w, rfl, hd⟩ := hv.member hp
  simp only at h'
  split at h'
  · exact absurd h' fail_ne_ok
  · obtain ⟨w', members, rfl, hd', rfl⟩ := hm h'
    exact ⟨w ++ ',' :: w', (key, value) :: members, by simp, .moreMembers hd hd', by simp⟩
  · cases h'
    exact ⟨w, [(key, value)], rfl, .oneMember hd, by simp⟩
  · exact absurd h' fail_ne_ok

theorem readArray_sound (hi : ItemsSound options fuel) (hlt : depth < options.maxDepth)
    (h : readArray options fuel depth cs = .ok (v, rest)) :
    ∃ w, '[' :: cs = w ++ rest ∧ Derives options.mode (options.maxDepth - depth) w (.value v) := by
  obtain ⟨d, hd⟩ : ∃ d, options.maxDepth - depth = d + 1 := ⟨options.maxDepth - depth - 1, by omega⟩
  obtain ⟨b, hb, hcs⟩ := exists_blanks cs
  rw [hd]
  unfold readArray at h
  split at h
  · rename_i tail heq
    cases h
    exact ⟨'[' :: b ++ [']'], by rw [hcs, heq]; simp, .emptyArray hb⟩
  -- the reader of elements skips the same blanks once more, so it might as well start at `cs`
  · cases fuel with
    | zero => exact absurd h (by simp [readItems, fail])
    | succ fuel =>
      rw [readItems_skipBlanks] at h
      obtain ⟨w, items, rfl, hw, rfl⟩ := hi h
      rw [show options.maxDepth - (depth + 1) = d by omega] at hw
      exact ⟨'[' :: w ++ [']'], by simp, .array hw⟩

theorem readObject_sound (hm : MembersSound options fuel) (hlt : depth < options.maxDepth)
    (h : readObject options fuel depth cs = .ok (v, rest)) :
    ∃ w, '\x7b' :: cs = w ++ rest ∧ Derives options.mode (options.maxDepth - depth) w (.value v) := by
  obtain ⟨d, hd⟩ : ∃ d, options.maxDepth - depth = d + 1 := ⟨options.maxDepth - depth - 1, by omega⟩
  obtain ⟨b, hb, hcs⟩ := exists_blanks cs
  rw [hd]
  unfold readObject at h
  split at h
  · rename_i tail heq
    cases h
    exact ⟨'\x7b' :: b ++ ['\x7d'], by rw [hcs, heq]; simp, .emptyObject hb⟩
  · cases fuel with
    | zero => exact absurd h (by simp [readMembers, fail])
    | succ fuel =>
      rw [readMembers_skipBlanks] at h
      obtain ⟨w, members, rfl, hw, rfl⟩ := hm h
      rw [show options.maxDepth - (depth + 1) = d by omega] at hw
      rw [foldl_add_nil]
      exact ⟨'\x7b' :: w ++ ['\x7d'], by simp, .object hw⟩

theorem valueSound_succ (hi : ItemsSound options fuel) (hm : MembersSound options fuel) :
    ValueSound options (fuel + 1) := by
  intro depth cs v rest h
  cases opening cs with
  | empty =>
    rw [readValue_nil] at h
    exact absurd h fail_ne_ok
  | null =>
    rw [readValue_null] at h
    obtain ⟨heq, rfl⟩ := readKeyword_eq_ok_iff.1 h
    exact ⟨_, heq, .null⟩
  | true =>
    rw [readValue_true] at h
    obtain ⟨heq, rfl⟩ := readKeyword_eq_ok_iff.1 h
    exact ⟨_, heq, .true⟩
  | false =>
    rw [readValue_false] at h
    obtain ⟨heq, rfl⟩ := readKeyword_eq_ok_iff.1 h
    exact ⟨_, heq, .false⟩
  | string =>
    rw [readValue_string] at h
    obtain ⟨⟨s, r⟩, hs, h'⟩ := Except.bind_eq_ok_iff.1 h
    cases h'
    obtain ⟨w, hw, heq⟩ := readString_eq_ok_iff.1 hs
    exact ⟨w, heq, .string hw⟩
  | array =>
    rw [readValue_array] at h
    split_ifs at h with hlt
    · exact absurd h fail_ne_ok
    · exact readArray_sound hi (by omega) h
  | object =>
    rw [readValue_object] at h
    split_ifs at h with hlt
    · exact absurd h fail_ne_ok
    · exact readObject_sound hm (by omega) h
  | other hc =>
    rw [readValue_other hc] at h
    split_ifs at h
    · obtain ⟨w, n, hcs, hw, hn, rfl⟩ := readNumber_sound h
      exact ⟨w, hcs, .number hw hn⟩
    · exact absurd h fail_ne_ok

/-- **What is read derives in the grammar.** -/
theorem reading_sound (options : Options) (fuel : ℕ) :
    ValueSound options fuel ∧ ItemsSound options fuel ∧ MembersSound options fuel := by
  induction fuel with
  | zero =>
    refine ⟨?_, ?_, ?_⟩
    · intro depth cs v rest h
      exact absurd h (by simp [readValue, fail])
    · intro depth before cs v rest h
      exact absurd h (by simp [readItems, fail])
    · intro depth before cs v rest h
      exact absurd h (by simp [readMembers, fail])
  | succ fuel ih =>
    obtain ⟨hv, hi, hm⟩ := ih
    exact ⟨valueSound_succ hi hm, itemsSound_succ hv hi, membersSound_succ hv hm⟩

end SqlJson.Json
