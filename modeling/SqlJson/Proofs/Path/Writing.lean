import SqlJson.Proofs.Path.Reading

/-!
# Paths can be written

Every place in a document has a path text: its keys in brackets and quotes, its indices in brackets. Path
texts put behind one another lead on from where the first one ends.

* `Locator`, `writing`: a key or an index, and the path text of a list of them.
* `joined`, `indexed`: a path text behind another one, and an index behind one.
* `compile_writing`, `compile_joined`, `compile_indexed`: what these are compiled to.
* `compile_iff_denotes`: the grammar, its texts for all places, and texts put behind one another.
-/

namespace SqlJson.Path

open Grammar

variable {maxSteps m n : ℕ} {p q : Path} {s t : String}

/-- One step down in a document: the key of a member, or the index of an element. -/
inductive Locator where
  | member (key : String)
  | element (n : UInt64)

namespace Locator

/-- The step that leads there. -/
def step : Locator → Step
  | member key => .quoted key
  | element n => .index n.toNat

/-- The characters of a key between quotes, with a backslash before quotes and backslashes. -/
def escape (cs : List Char) : List Char :=
  cs.flatMap fun c => if c = '"' ∨ c = '\\' then ['\\', c] else [c]

/-- **The step as it is written**: `["key"]` or `[n]`. -/
def chars : Locator → List Char
  | member key => '[' :: '"' :: escape key.toList ++ ['"', ']']
  | element n => '[' :: Nat.toDigits 10 n.toNat ++ [']']

theorem escaped_escape (cs : List Char) : Escaped '"' (escape cs) cs := by
  induction cs with
  | nil => exact .nil
  | cons c cs ih =>
    rw [escape, List.flatMap_cons]
    split_ifs with hc
    · exact .escape hc ih
    · exact .plain (fun h => hc (.inl h)) (fun h => hc (.inr h)) ih

theorem writes_chars (l : Locator) : Writes l.chars l.step := by
  cases l with
  | member key =>
    have h := Writes.bracketed (.inl rfl) (escaped_escape key.toList)
    rw [String.ofList_toList] at h
    exact h
  | element n =>
    have hlt := n.toNat_lt
    have h : Writes ('[' :: Nat.toDigits 10 n.toNat ++ [']']) _ :=
      .index (List.ne_nil_of_length_pos Nat.length_toDigits_pos)
        (fun d hd => Nat.isDigit_of_mem_toDigits (by norm_num) (by norm_num) hd)
        (by rw [Nat.ofDigitChars_ten_toDigits]; omega)
    rw [Nat.ofDigitChars_ten_toDigits] at h
    exact h

end Locator

/-- **The path text of a place**, given by the keys and indices that lead there. -/
def writing (locators : List Locator) : String := String.ofList ('$' :: locators.flatMap Locator.chars)

theorem writesAll_chars (locators : List Locator) :
    WritesAll (locators.flatMap Locator.chars) (locators.map Locator.step) := by
  induction locators with
  | nil => exact .nil
  | cons l rest ih => exact .cons l.writes_chars ih

/-- **Every place can be written.** -/
theorem compile_writing {locators : List Locator} (h : locators.length ≤ maxSteps) :
    compile maxSteps (writing locators) = .ok ⟨writing locators, locators.map Locator.step⟩ := by
  rw [compile_eq_ok_iff_denotes, writing, String.toList_ofList]
  exact ⟨rfl, _, rfl, writesAll_chars locators, by rw [List.length_map]; exact h⟩

/-- **A path text behind another one**, without its dollar sign. -/
def joined (s t : String) : String := String.ofList (s.toList ++ t.toList.tail)

/-- **Joined texts are compiled to the steps of the one and then those of the other.** -/
theorem compile_joined (hp : compile m s = .ok p) (hq : compile n t = .ok q)
    (h : p.steps.length + q.steps.length ≤ maxSteps) :
    compile maxSteps (joined s t) = .ok ⟨joined s t, p.steps ++ q.steps⟩ := by
  obtain ⟨-, vs, hs, hvs, -⟩ := compile_eq_ok_iff_denotes.1 hp
  obtain ⟨-, ws, ht, hws, -⟩ := compile_eq_ok_iff_denotes.1 hq
  rw [compile_eq_ok_iff_denotes, joined, String.toList_ofList, hs, ht]
  exact ⟨rfl, vs ++ ws, rfl, hvs.append hws, by rw [List.length_append]; exact h⟩

/-- **A path text with an index behind it**, in brackets. -/
def indexed (s : String) (n : UInt64) : String := s ++ "[" ++ toString n.toNat ++ "]"

/-- A path with an index behind it is compiled to one step more. -/
theorem compile_indexed (hp : compile maxSteps s = .ok p) (h : p.steps.length < maxSteps) (n : UInt64) :
    compile maxSteps (indexed s n) = .ok ⟨indexed s n, p.steps ++ [.index n.toNat]⟩ := by
  obtain ⟨-, vs, hs, hvs, -⟩ := compile_eq_ok_iff_denotes.1 hp
  have hindex : WritesAll (Locator.element n).chars [.index n.toNat] := by
    have hone := WritesAll.cons (Locator.writes_chars (.element n)) .nil
    rwa [List.append_nil] at hone
  have hchars : (indexed s n).toList = '$' :: (vs ++ (Locator.element n).chars) := by
    have hnumber : (toString n.toNat).toList = Nat.toDigits 10 n.toNat := Nat.toList_repr
    simp only [indexed, String.toList_append, hs, hnumber, Locator.chars]
    simp
  rw [compile_eq_ok_iff_denotes, hchars]
  refine ⟨rfl, _, rfl, hvs.append hindex, ?_⟩
  rw [List.length_append, List.length_singleton]
  omega

example : indexed "$.a" 12 = "$.a[12]" := by decide +kernel

/-- **The path compiler accepts exactly its grammar, and every place can be written.** A text is compiled iff
it is a dollar sign and at most so many steps, and to these steps. Any keys and indices, written in
brackets, are compiled to themselves. A path text behind another one is compiled to the steps of both. -/
theorem compile_iff_denotes (maxSteps : ℕ) :
    (∀ text path, compile maxSteps text = .ok path ↔
        path.text = text ∧ Denotes maxSteps text.toList path.steps) ∧
      (∀ locators : List Locator, locators.length ≤ maxSteps →
        compile maxSteps (writing locators) = .ok ⟨writing locators, locators.map Locator.step⟩) ∧
      ∀ m n s t p q, compile m s = .ok p → compile n t = .ok q → p.steps.length + q.steps.length ≤ maxSteps →
        compile maxSteps (joined s t) = .ok ⟨joined s t, p.steps ++ q.steps⟩ :=
  ⟨fun _ _ => compile_eq_ok_iff_denotes, fun _ => compile_writing, fun _ _ _ _ _ _ => compile_joined⟩

/-- A key that needs all escapes and an empty one; a path text behind another one. -/
theorem compile_iff_denotes_escapes :
    writing [.member "\"\\.[", .member "", .element 12] = "$[\"\\\"\\\\.[\"][\"\"][12]" ∧
      compile 3 (writing [.member "\"\\.[", .member "", .element 12]) =
        .ok ⟨writing [.member "\"\\.[", .member "", .element 12], [.quoted "\"\\.[", .quoted "", .index 12]⟩ ∧
      joined "$['it\\'s'].a" "$[007]" = "$['it\\'s'].a[007]" ∧
      compile 3 (joined "$['it\\'s'].a" "$[007]") =
        .ok ⟨joined "$['it\\'s'].a" "$[007]", [.quoted "it's", .member "a", .index 7]⟩ := by
  have hp : compile 2 "$['it\\'s'].a" = .ok ⟨"$['it\\'s'].a", [.quoted "it's", .member "a"]⟩ := by
    decide +kernel
  have hq : compile 1 "$[007]" = .ok ⟨"$[007]", [.index 7]⟩ := by decide +kernel
  obtain ⟨-, hwriting, hjoined⟩ := compile_iff_denotes 3
  refine ⟨by decide +kernel, ?_, by decide +kernel, hjoined 2 1 _ _ _ _ hp hq (by decide)⟩
  exact hwriting [.member "\"\\.[", .member "", .element 12] (by decide)

end SqlJson.Path
