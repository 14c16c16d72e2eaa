import SqlJson.Proofs.Checked
import SqlJson.Text.Size

/-!
# Texts as bytes

A text is kept in UTF-8, and a scanner reads it byte by byte. A character below `128` is one byte of the same number.
All bytes of any other character are `128` or more, so that a byte below is never part of a longer character.

* `bytes`, `byteAt?`: the bytes of a text, each as the character of its number.
* `length_bytes`, `byteSize_toList`: their number.
* `encode_of_lt`, `le_of_mem_encode`: **the two kinds of characters**.
-/

namespace SqlJson.Text

variable {c : Char} {cs ds : List Char} {text : String} {i : ℕ}

/-! ## Sizes -/

@[simp] theorem byteSize_nil : byteSize [] = 0 := rfl

@[simp] theorem byteSize_cons (c : Char) (cs : List Char) : byteSize (c :: cs) = c.utf8Size + byteSize cs := rfl

theorem byteSize_append (cs ds : List Char) : byteSize (cs ++ ds) = byteSize cs + byteSize ds := by
  induction cs with
  | nil => simp
  | cons c cs ih =>
    rw [List.cons_append, byteSize_cons, byteSize_cons, ih]
    omega

/-- There are no more characters than bytes. -/
theorem length_le_byteSize (cs : List Char) : cs.length ≤ byteSize cs := by
  induction cs with
  | nil => exact le_rfl
  | cons c cs ih =>
    have hpos := c.utf8Size_pos
    rw [List.length_cons, byteSize_cons]
    omega

theorem byteSize_eq_zero_iff : byteSize cs = 0 ↔ cs = [] := by
  have hle := length_le_byteSize cs
  constructor
  · intro h0
    exact List.length_eq_zero_iff.1 (by omega)
  · rintro rfl
    rfl

/-! ## Bytes -/

/-- The bytes of a character. -/
def encode (c : Char) : List Char := (String.utf8EncodeChar c).map Char.ofUInt8

/-- The bytes of characters. -/
def bytes (cs : List Char) : List Char := cs.flatMap encode

/-- **The byte at a place** of a text, if the text goes on there. -/
def byteAt? (text : String) (i : Nat) : Option Char := text.toByteArray.data[i]?.map Char.ofUInt8

theorem length_encode (c : Char) : (encode c).length = c.utf8Size := by
  rw [encode, List.length_map, String.length_utf8EncodeChar]

theorem bytes_append (cs ds : List Char) : bytes (cs ++ ds) = bytes cs ++ bytes ds := List.flatMap_append

theorem length_bytes (cs : List Char) : (bytes cs).length = byteSize cs := by
  induction cs with
  | nil => rfl
  | cons c cs ih =>
    rw [bytes, List.flatMap_cons, List.length_append, length_encode, byteSize_cons]
    exact congrArg (c.utf8Size + ·) ih

theorem bytes_toList (text : String) : text.toByteArray.data.toList.map Char.ofUInt8 = bytes text.toList := by
  rw [← String.utf8Encode_toList, List.utf8Encode, List.data_toByteArray, List.toList_toArray, List.map_flatMap]
  rfl

theorem byteAt?_eq (text : String) (i : ℕ) : byteAt? text i = (bytes text.toList)[i]? := by
  rw [← bytes_toList, List.getElem?_map, Array.getElem?_toList]
  rfl

/-- The size of a text is the number of its bytes. -/
theorem byteSize_toList (text : String) : byteSize text.toList = text.utf8ByteSize := by
  rw [← length_bytes, ← bytes_toList, List.length_map]
  rfl

/-! ## The two kinds of characters -/

theorem toNat_ofUInt8 (n : ℕ) (h : n < 256) : (Char.ofUInt8 (UInt8.ofNat n)).toNat = n := by
  have h8 : (UInt8.ofNat n).toNat = n := by
    rw [UInt8.toNat_ofNat']
    omega
  exact h8

/-- **A character below `128` is its one byte.** -/
theorem encode_of_lt (h : c.toNat < 128) : encode c = [c] := by
  have hsize : c.val.toNat ≤ 127 := by
    have : c.toNat = c.val.toNat := rfl
    omega
  have hbyte : Char.ofUInt8 (UInt8.ofNat c.val.toNat) = c := Char.toNat_inj.1 (toNat_ofUInt8 _ (by omega))
  rw [encode, String.utf8EncodeChar, if_pos hsize, List.map_singleton, hbyte]

/-- **The bytes of any other character are `128` or more.** -/
theorem le_of_mem_encode (h : 128 ≤ c.toNat) {b : Char} (hb : b ∈ encode c) : 128 ≤ b.toNat := by
  have hsize : ¬ c.val.toNat ≤ 127 := by
    have : c.toNat = c.val.toNat := rfl
    omega
  rw [encode, String.utf8EncodeChar, if_neg hsize] at hb
  obtain ⟨n, hn, rfl⟩ : ∃ n, (128 ≤ n ∧ n < 256) ∧ Char.ofUInt8 (UInt8.ofNat n) = b := by
    split_ifs at hb
    all_goals
      simp only [List.map_cons, List.map_nil, List.mem_cons, List.not_mem_nil, or_false] at hb
    · rcases hb with rfl | rfl
      · exact ⟨_, by omega, rfl⟩
      · exact ⟨_, by omega, rfl⟩
    · rcases hb with rfl | rfl | rfl
      · exact ⟨_, by omega, rfl⟩
      · exact ⟨_, by omega, rfl⟩
      · exact ⟨_, by omega, rfl⟩
    · rcases hb with rfl | rfl | rfl | rfl
      · exact ⟨_, by omega, rfl⟩
      · exact ⟨_, by omega, rfl⟩
      · exact ⟨_, by omega, rfl⟩
      · exact ⟨_, by omega, rfl⟩
  rw [toNat_ofUInt8 n hn.2]
  exact hn.1

end SqlJson.Text
