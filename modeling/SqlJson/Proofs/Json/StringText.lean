import SqlJson.Json.Reader
import SqlJson.Proofs.Except
import SqlJson.Proofs.Json.Grammar

/-!
# Strings of JSON texts

The reader of strings takes a quoted string off the front of a text, and takes off what the
grammar calls one and nothing else.

* `readHex_four`: the four digits of a code unit.
* `readEscape_eq_ok_iff`: an escape, a surrogate pair being one escape.
* `readString_eq_ok_iff`: a string. Its end is marked, so what follows does not matter.
-/

namespace SqlJson.Json

open Grammar

theorem fail_ne_ok {α : Type} {fault : Fault} {rest : List Char} {a : α} :
    (fail fault rest : Reading α) ≠ .ok a := by
  simp [fail]

/-! ## Code units -/

theorem hexDigit_lt {c : Char} {n : ℕ} (h : HexDigit c n) : n < 16 := by
  rcases h with h | h <;> exact (List.getElem?_eq_some_iff.1 h).1

theorem hexDigit?_of_hexDigit {c : Char} {n : ℕ} (h : HexDigit c n) : hexDigit? c = some n := by
  have hn := hexDigit_lt h
  interval_cases n <;> rcases h with h | h <;> simp at h <;> subst h <;> rfl

/-- The characters from `a` to `b` by their codes. -/
theorem char_between {a b c : Char} (h : a ≤ c ∧ c ≤ b) : a.toNat ≤ c.toNat ∧ c.toNat ≤ b.toNat := by
  simp only [Char.le_def, UInt32.le_iff_toNat_le] at h
  exact h

theorem hexDigit_of_hexDigit? {c : Char} {n : ℕ} (h : hexDigit? c = some n) : HexDigit c n := by
  have hc := Char.ofNat_toNat c
  unfold hexDigit? at h
  split_ifs at h with h1 h2 h3
  on_goal 1 => have hb := Char.isDigit_iff_toNat.1 h1
  on_goal 2 => have hb := char_between h2
  on_goal 3 => have hb := char_between h3
  -- each of the three ranges has few characters, so they are gone through by their codes
  all_goals
    generalize c.toNat = m at *
    simp only [Char.reduceToNat] at hb h
    obtain ⟨hl, hu⟩ := hb
    interval_cases m <;> cases h <;> subst hc <;> decide

theorem readHex_succ_eq_ok_iff {n value : ℕ} {cs : List Char} {r : ℕ × List Char} :
    readHex (n + 1) value cs = .ok r ↔
      ∃ c i rest, cs = c :: rest ∧ HexDigit c i ∧ readHex n (16 * value + i) rest = .ok r := by
  cases cs with
  | nil => simp [readHex, fail]
  | cons c rest =>
    simp only [readHex, List.cons.injEq]
    cases hd : hexDigit? c with
    | none =>
      simp only [fail_ne_ok, false_iff]
      rintro ⟨c', i, rest', ⟨rfl, rfl⟩, hi, -⟩
      rw [hexDigit?_of_hexDigit hi] at hd
      cases hd
    | some digit =>
      constructor
      · intro h
        exact ⟨c, digit, rest, ⟨rfl, rfl⟩, hexDigit_of_hexDigit? hd, h⟩
      · rintro ⟨c', i, rest', ⟨rfl, rfl⟩, hi, h⟩
        rw [hexDigit?_of_hexDigit hi] at hd
        cases hd
        exact h

/-- **Four digits are read as the code unit they stand for.** -/
theorem readHex_four {cs rest : List Char} {n : ℕ} :
    readHex 4 0 cs = .ok (n, rest) ↔ ∃ ds, CodeUnit ds n ∧ cs = ds ++ rest := by
  constructor
  · intro h
    obtain ⟨a, i, r1, rfl, ha, h⟩ := readHex_succ_eq_ok_iff.1 h
    obtain ⟨b, j, r2, rfl, hb, h⟩ := readHex_succ_eq_ok_iff.1 h
    obtain ⟨c, k, r3, rfl, hc, h⟩ := readHex_succ_eq_ok_iff.1 h
    obtain ⟨d, l, r4, rfl, hd, h⟩ := readHex_succ_eq_ok_iff.1 h
    simp only [readHex, Except.ok.injEq, Prod.mk.injEq] at h
    obtain ⟨hn, rfl⟩ := h
    have hn : n = 4096 * i + 256 * j + 16 * k + l := by omega
    exact ⟨[a, b, c, d], hn ▸ CodeUnit.mk ha hb hc hd, rfl⟩
  · rintro ⟨ds, h, rfl⟩
    cases h with
    | @mk a b c d i j k l ha hb hc hd =>
      refine readHex_succ_eq_ok_iff.2 ⟨a, i, _, rfl, ha, ?_⟩
      refine readHex_succ_eq_ok_iff.2 ⟨b, j, _, rfl, hb, ?_⟩
      refine readHex_succ_eq_ok_iff.2 ⟨c, k, _, rfl, hc, ?_⟩
      refine readHex_succ_eq_ok_iff.2 ⟨d, l, _, rfl, hd, ?_⟩
      simp only [readHex, Except.ok.injEq, Prod.mk.injEq]
      exact ⟨by omega, rfl⟩

/-- A code unit has sixteen bits. -/
theorem codeUnit_lt {ds : List Char} {n : ℕ} (h : CodeUnit ds n) : n < 0x10000 := by
  cases h with
  | mk ha hb hc hd =>
    have := hexDigit_lt ha
    have := hexDigit_lt hb
    have := hexDigit_lt hc
    have := hexDigit_lt hd
    omega

/-! ## Escapes -/

theorem toNat_ofNat {n : ℕ} (h : n.isValidChar) : (Char.ofNat n).toNat = n := by
  rw [Char.ofNat, dif_pos h]
  exact UInt32.toNat_ofNatLT

/-- No character is a surrogate. -/
theorem not_surrogate (c : Char) : ¬IsHigh c.toNat ∧ ¬IsLow c.toNat := by
  have h : c.toNat.isValidChar := c.valid
  unfold Nat.isValidChar at h
  unfold IsHigh IsLow
  omega

/-- The character of a code unit that is no surrogate. -/
theorem toNat_unit {ds : List Char} {n : ℕ} (h : CodeUnit ds n) (hh : ¬IsHigh n) (hl : ¬IsLow n) :
    (Char.ofNat n).toNat = n := by
  have hn := codeUnit_lt h
  apply toNat_ofNat
  unfold IsHigh at hh
  unfold IsLow at hl
  unfold Nat.isValidChar
  omega

/-- The character of a surrogate pair. -/
theorem toNat_pair {high low : ℕ} (hh : IsHigh high) (hl : IsLow low) :
    (Char.ofNat (0x10000 + (high - 0xD800) * 0x400 + (low - 0xDC00))).toNat =
      0x10000 + 0x400 * (high - 0xD800) + (low - 0xDC00) := by
  unfold IsHigh at hh
  unfold IsLow at hl
  rw [toNat_ofNat, Nat.mul_comm]
  unfold Nat.isValidChar
  omega

theorem readUnicode_sound {escape cs rest : List Char} {c : Char}
    (h : readUnicode escape cs = .ok (c, rest)) :
    ∃ w, Letter ('\\' :: 'u' :: w) c ∧ cs = w ++ rest := by
  unfold readUnicode at h
  obtain ⟨⟨unit, r1⟩, hu, h1⟩ := Except.bind_eq_ok_iff.1 h
  obtain ⟨ds, hds, rfl⟩ := readHex_four.1 hu
  simp only at h1
  -- a high surrogate has to be followed by a low one; a low one cannot come first
  split_ifs at h1 with hh hl
  · split at h1
    · rename_i r2
      obtain ⟨⟨low, r3⟩, hlow, h2⟩ := Except.bind_eq_ok_iff.1 h1
      obtain ⟨es, hes, rfl⟩ := readHex_four.1 hlow
      simp only at h2
      split_ifs at h2 with hlo
      · simp only [pure, Except.pure, Except.ok.injEq, Prod.mk.injEq] at h2
        obtain ⟨rfl, rfl⟩ := h2
        exact ⟨ds ++ '\\' :: 'u' :: es, .pair hds hh hes hlo (toNat_pair hh hlo), by simp⟩
      · exact absurd h2 fail_ne_ok
    · exact absurd h1 fail_ne_ok
  · exact absurd h1 fail_ne_ok
  · simp only [pure, Except.pure, Except.ok.injEq, Prod.mk.injEq] at h1
    obtain ⟨rfl, rfl⟩ := h1
    exact ⟨ds, .unit ((toNat_unit hds hh hl).symm ▸ hds), rfl⟩

theorem readUnicode_unit {escape ds : List Char} {c : Char} (h : CodeUnit ds c.toNat)
    (rest : List Char) : readUnicode escape (ds ++ rest) = .ok (c, rest) := by
  obtain ⟨hh, hl⟩ := not_surrogate c
  unfold IsHigh at hh
  unfold IsLow at hl
  unfold readUnicode
  rw [readHex_four.2 ⟨ds, h, rfl⟩]
  simp only [bind, Except.bind, pure, Except.pure, hh, hl, if_false, Char.ofNat_toNat]

theorem readUnicode_pair {escape ds es : List Char} {high low : ℕ} {c : Char}
    (hd : CodeUnit ds high) (hh : IsHigh high) (he : CodeUnit es low) (hl : IsLow low)
    (hc : c.toNat = 0x10000 + 0x400 * (high - 0xD800) + (low - 0xDC00)) (rest : List Char) :
    readUnicode escape (ds ++ '\\' :: 'u' :: es ++ rest) = .ok (c, rest) := by
  have hchar : Char.ofNat (0x10000 + (high - 0xD800) * 0x400 + (low - 0xDC00)) = c := by
    rw [Nat.mul_comm (high - 0xD800), ← hc, Char.ofNat_toNat]
  unfold IsHigh at hh
  unfold IsLow at hl
  unfold readUnicode
  rw [List.append_assoc, readHex_four.2 ⟨ds, hd, rfl⟩]
  simp only [bind, Except.bind, List.cons_append, hh, and_self, if_true]
  rw [readHex_four.2 ⟨es, he, rfl⟩]
  simp only [hl, and_self, if_true, hchar, pure, Except.pure]

theorem readEscape_short {escape : List Char} {e c : Char} (h : (e, c) ∈ shortEscapes)
    (rest : List Char) : readEscape escape (e :: rest) = .ok (c, rest) := by
  simp only [shortEscapes, List.mem_cons, Prod.mk.injEq, List.not_mem_nil, or_false] at h
  rcases h with ⟨rfl, rfl⟩ | ⟨rfl, rfl⟩ | ⟨rfl, rfl⟩ | ⟨rfl, rfl⟩ | ⟨rfl, rfl⟩ | ⟨rfl, rfl⟩ |
    ⟨rfl, rfl⟩ | ⟨rfl, rfl⟩ <;> rfl

theorem mem_shortEscapes_of_lookup {e c : Char} (h : shortEscapes.lookup e = some c) : (e, c) ∈ shortEscapes := by
  obtain ⟨before, after, hlist, -⟩ := List.lookup_eq_some_iff.1 h
  rw [hlist]
  exact List.mem_append_right _ List.mem_cons_self

/-- **An escape by its second character**: one of a short escape, or of a code unit. -/
theorem readEscape_cons (escape : List Char) (c : Char) (rest : List Char) : readEscape escape (c :: rest) =
    match shortEscapes.lookup c with
    | some d => .ok (d, rest)
    | none => if c = 'u' then readUnicode escape rest else fail .unknownEscape escape := by
  cases hfound : shortEscapes.lookup c with
  | some d => exact readEscape_short (mem_shortEscapes_of_lookup hfound) rest
  | none =>
    have hne : ∀ entry ∈ shortEscapes, c ≠ entry.1 := by
      simpa using List.lookup_eq_none_iff.1 hfound
    unfold readEscape
    split <;> simp_all [shortEscapes]

theorem readEscape_sound {escape cs rest : List Char} {c : Char}
    (h : readEscape escape cs = .ok (c, rest)) : ∃ w, Letter ('\\' :: w) c ∧ cs = w ++ rest := by
  cases cs with
  | nil => exact absurd h fail_ne_ok
  | cons e tail =>
    rw [readEscape_cons] at h
    cases hfound : shortEscapes.lookup e with
    | some d =>
      rw [hfound] at h
      cases h
      exact ⟨[e], .short (mem_shortEscapes_of_lookup hfound), rfl⟩
    | none =>
      rw [hfound] at h
      dsimp only at h
      split_ifs at h with hu
      · obtain ⟨w, hw, rfl⟩ := readUnicode_sound h
        rw [hu]
        exact ⟨'u' :: w, hw, rfl⟩
      · exact absurd h fail_ne_ok

/-- **An escape is read as the character it stands for.** -/
theorem readEscape_eq_ok_iff {escape cs rest : List Char} {c : Char} :
    readEscape escape cs = .ok (c, rest) ↔ ∃ w, Letter ('\\' :: w) c ∧ cs = w ++ rest := by
  refine ⟨readEscape_sound, ?_⟩
  rintro ⟨w, h, rfl⟩
  generalize hw : '\\' :: w = text at h
  cases h with
  | plain hc hq hb => exact absurd (List.cons.inj hw).1.symm hb
  | @short e c he =>
    cases hw
    exact readEscape_short he rest
  | @unit ds c hd =>
    cases hw
    exact readUnicode_unit hd rest
  | @pair ds es high low c hd hh he hl hc =>
    cases hw
    exact readUnicode_pair hd hh he hl hc rest

/-! ## Strings -/

/-- A character is written as it is, or as an escape. -/
theorem letter_cases {w : List Char} {c : Char} (h : Letter w c) :
    (w = [c] ∧ 0x20 ≤ c.toNat ∧ c ≠ '"' ∧ c ≠ '\\') ∨ ∃ e, w = '\\' :: e := by
  cases h with
  | plain hc hq hb => exact .inl ⟨rfl, hc, hq, hb⟩
  | short _ => exact .inr ⟨_, rfl⟩
  | unit _ => exact .inr ⟨_, rfl⟩
  | pair _ _ _ _ _ => exact .inr ⟨_, rfl⟩

theorem readStringFrom_sound {opening : List Char} : ∀ (fuel : ℕ) {before cs chars rest : List Char},
    readStringFrom opening fuel before cs = .ok (chars, rest) →
      ∃ ws new, Letters ws new ∧ chars = before.reverse ++ new ∧ cs = ws ++ '"' :: rest := by
  intro fuel
  -- on the fuel, which every character uses up by one, for any characters read before
  induction fuel with
  | zero => intro before cs chars rest h; exact absurd h (by simp [readStringFrom, fail])
  | succ fuel ih =>
    intro before cs chars rest h
    rw [readStringFrom.eq_def] at h
    split at h
    · exact absurd h fail_ne_ok
    · exact absurd h fail_ne_ok
    · cases h
      exact ⟨[], [], .nil, by simp, rfl⟩
    · rename_i fuel' before' tail heq
      obtain rfl := Nat.succ.inj heq
      obtain ⟨⟨c, tail'⟩, hc, h'⟩ := Except.bind_eq_ok_iff.1 h
      obtain ⟨w, hw, rfl⟩ := readEscape_eq_ok_iff.1 hc
      obtain ⟨ws, new, hs, rfl, rfl⟩ := ih h'
      exact ⟨'\\' :: w ++ ws, c :: new, .cons hw hs, by simp, by simp⟩
    · rename_i fuel' before' c tail hq hb heq
      obtain rfl := Nat.succ.inj heq
      split_ifs at h with hc
      · exact absurd h fail_ne_ok
      · obtain ⟨ws, new, hs, rfl, rfl⟩ := ih h
        have hw : Letter [c] c := .plain (by omega) (fun e => hq (by rw [e])) (fun e => hb (by rw [e]))
        exact ⟨[c] ++ ws, c :: new, .cons hw hs, by simp, by simp⟩

/-- One character takes one unit of fuel, however it is written. -/
theorem readStringFrom_letter {opening w : List Char} {c : Char} (h : Letter w c) (fuel : ℕ)
    (before tail : List Char) : readStringFrom opening (fuel + 1) before (w ++ tail) =
      readStringFrom opening fuel (c :: before) tail := by
  rcases letter_cases h with ⟨rfl, hc, hq, hb⟩ | ⟨e, rfl⟩
  · have hc' : ¬c.toNat < 0x20 := by omega
    simp [readStringFrom, hc']
  · have he : readEscape ('\\' :: (e ++ tail)) (e ++ tail) = .ok (c, tail) :=
      readEscape_eq_ok_iff.2 ⟨e, h, rfl⟩
    rw [List.cons_append, readStringFrom, he]
    rfl

theorem letter_ne_nil {w : List Char} {c : Char} (h : Letter w c) : 0 < w.length := by
  rcases letter_cases h with ⟨rfl, -⟩ | ⟨e, rfl⟩ <;> simp

theorem readStringFrom_complete {opening ws new : List Char} (h : Letters ws new) :
    ∀ {fuel : ℕ} (before rest : List Char), ws.length < fuel →
      readStringFrom opening fuel before (ws ++ '"' :: rest) = .ok (before.reverse ++ new, rest) := by
  induction h with
  | nil =>
    intro fuel before rest hf
    obtain ⟨fuel, rfl⟩ : ∃ f, fuel = f + 1 := ⟨fuel - 1, by omega⟩
    simp [readStringFrom]
  | @cons w ws c new hw hs ih =>
    intro fuel before rest hf
    have hpos := letter_ne_nil hw
    rw [List.length_append] at hf
    obtain ⟨fuel, rfl⟩ : ∃ f, fuel = f + 1 := ⟨fuel - 1, by omega⟩
    rw [List.append_assoc, readStringFrom_letter hw, ih (c :: before) rest (by omega)]
    simp

/-- **A string is read as its content**, whatever follows it. -/
theorem readString_eq_ok_iff {tail rest : List Char} {s : String} :
    readString ('"' :: tail) = .ok (s, rest) ↔ ∃ w, Quoted w s ∧ '"' :: tail = w ++ rest := by
  constructor
  · intro h
    unfold readString at h
    obtain ⟨⟨chars, r⟩, hc, h'⟩ := Except.bind_eq_ok_iff.1 h
    cases h'
    obtain ⟨ws, new, hs, rfl, htail⟩ := readStringFrom_sound _ hc
    rw [List.tail_cons] at htail
    exact ⟨'"' :: ws ++ ['"'], .mk hs, by simp [htail]⟩
  · rintro ⟨w, hw, h⟩
    cases hw with
    | @mk ws cs hs =>
      obtain rfl : tail = ws ++ '"' :: rest := by simpa using h
      unfold readString
      rw [List.tail_cons, readStringFrom_complete hs [] rest (by simp)]
      rfl

/-- A string in quotes begins with a quote. -/
theorem quoted_head {w : List Char} {s : String} (h : Quoted w s) : ∃ tail, w = '"' :: tail := by
  cases h
  exact ⟨_, rfl⟩

end SqlJson.Json
