import Mathlib.Tactic

/-!
# Computations that may fail

How a sequence of steps succeeds: used wherever a reader, a call or an edit is taken apart.

* `bind_eq_ok_iff`: a sequence of two steps succeeds when both do.
* `Ensures`: what is known of every value that a computation can give, and how that is put together for
  sequences and along lists.
* `Raises`: the same for every error that a computation can fail with.
* `Agree`: two computations that end alike.
-/

namespace SqlJson.Except

variable {ε ε' α β : Type} {x : Except ε α} {f : α → Except ε β} {a : α} {b : β} {e : ε} {P : α → Prop}
  {R : β → Prop} {E : ε → Prop}

/-- **A sequence of two steps succeeds when both do.** -/
theorem bind_eq_ok_iff : (x >>= f) = .ok b ↔ ∃ a, x = .ok a ∧ f a = .ok b := by
  cases x <;> simp [bind, Except.bind]

/-- **What is known of every value** that a computation can give. -/
def Ensures (x : Except ε α) (P : α → Prop) : Prop := ∀ a, x = .ok a → P a

theorem ensures_ok (h : P a) : Ensures (.ok a : Except ε α) P := by
  intro a' heq
  cases heq
  exact h

theorem ensures_error (e : ε) : Ensures (.error e) P := by
  intro a heq
  cases heq

/-- What is known of the value of a sequence of two steps. -/
theorem Ensures.bind (hx : Ensures x P) (hf : ∀ a, P a → Ensures (f a) R) : Ensures (x >>= f) R := by
  intro b heq
  obtain ⟨a, ha, hb⟩ := bind_eq_ok_iff.1 heq
  exact hf a (hx a ha) b hb

/-- A step whose value does not matter. -/
theorem ensures_bind (hf : ∀ a, Ensures (f a) R) : Ensures (x >>= f) R := by
  intro b heq
  obtain ⟨a, -, hb⟩ := bind_eq_ok_iff.1 heq
  exact hf a b hb

theorem ensures_any : Ensures x fun _ => True := fun _ _ => trivial

theorem ensures_map {f : α → β} (h : ∀ a, P a → R (f a)) (hx : Ensures x P) : Ensures (x.map f) R := by
  cases x with
  | ok a => exact ensures_ok (h a (hx a rfl))
  | error e => exact ensures_error e

/-- What is known of each value of a computation made for each element of a list. -/
theorem ensures_mapM {f : α → Except ε β} (hf : ∀ a, Ensures (f a) R) (list : List α) :
    Ensures (list.mapM f) fun values => ∀ b ∈ values, R b := by
  induction list with
  | nil => exact ensures_ok (List.forall_mem_nil R)
  | cons a rest ih =>
    rw [List.mapM_cons]
    refine (hf a).bind fun b hb => ih.bind fun values hvalues => ?_
    exact ensures_ok (List.forall_mem_cons.2 ⟨hb, hvalues⟩)

/-- **A computation made for each element of a list succeeds when all of them do.** -/
theorem mapM_eq_ok_iff {f : α → Except ε β} {list : List α} {values : List β} :
    list.mapM f = .ok values ↔ List.Forall₂ (fun a b => f a = .ok b) list values := by
  induction list generalizing values with
  | nil =>
    rw [List.mapM_nil, List.forall₂_nil_left_iff]
    exact ⟨fun h => by cases h; rfl, fun h => by rw [h]; rfl⟩
  | cons a rest ih =>
    rw [List.mapM_cons, bind_eq_ok_iff, List.forall₂_cons_left_iff]
    constructor
    · rintro ⟨b, hb, h⟩
      obtain ⟨values', hvalues, heq⟩ := bind_eq_ok_iff.1 h
      cases heq
      exact ⟨b, values', hb, ih.1 hvalues, rfl⟩
    · rintro ⟨b, values', hb, hvalues, rfl⟩
      exact ⟨b, hb, bind_eq_ok_iff.2 ⟨values', ih.2 hvalues, rfl⟩⟩

/-- **What every step of a computation along a list keeps**, the whole computation keeps. -/
theorem ensures_foldlM {f : β → α → Except ε β} {list : List α}
    (hf : ∀ a ∈ list, ∀ b, R b → Ensures (f b a) R) (hb : R b) : Ensures (list.foldlM f b) R := by
  induction list generalizing b with
  | nil => exact ensures_ok hb
  | cons a rest ih =>
    obtain ⟨ha, hrest⟩ := List.forall_mem_cons.1 hf
    rw [List.foldlM_cons]
    exact (ha b hb).bind fun b' hb' => ih hrest hb'

/-! ## Errors -/

/-- **What is known of every error** that a computation can fail with. -/
def Raises (x : Except ε α) (E : ε → Prop) : Prop := ∀ e, x = .error e → E e

theorem raises_ok (a : α) : Raises (.ok a) E := by
  intro e heq
  cases heq

theorem raises_error (h : E e) : Raises (.error e : Except ε α) E := by
  intro e' heq
  cases heq
  exact h

/-- A sequence of two steps fails as one of them does. -/
theorem Raises.bind (hx : Raises x E) (hf : ∀ a, Raises (f a) E) : Raises (x >>= f) E := by
  intro e heq
  cases x with
  | ok a => exact hf a e heq
  | error =>
    cases heq
    exact hx e rfl

theorem Raises.map (hx : Raises x E) (f : α → β) : Raises (x.map f) E := by
  intro e heq
  cases x with
  | ok a => cases heq
  | error =>
    cases heq
    exact hx e rfl

theorem Raises.mapError {F : ε' → Prop} (hx : Raises x E) {f : ε → ε'} (hf : ∀ e, E e → F (f e)) :
    Raises (x.mapError f) F := by
  intro e heq
  cases x with
  | ok a => cases heq
  | error e' =>
    cases heq
    exact hf e' (hx e' rfl)

/-- A computation made for each element of a list fails as one of them does. -/
theorem raises_mapM {f : α → Except ε β} (hf : ∀ a, Raises (f a) E) (list : List α) :
    Raises (list.mapM f) E := by
  induction list with
  | nil => exact raises_ok []
  | cons a rest ih =>
    rw [List.mapM_cons]
    exact (hf a).bind fun b => ih.bind fun values => raises_ok _

/-- **A computation along a list** fails as one of its steps does. -/
theorem raises_foldlM {f : β → α → Except ε β} (hf : ∀ b a, Raises (f b a) E) (list : List α) (b : β) :
    Raises (list.foldlM f b) E := by
  induction list generalizing b with
  | nil => exact raises_ok b
  | cons a rest ih =>
    rw [List.foldlM_cons]
    exact (hf b a).bind ih

/-! ## Two computations -/

/-- **Two computations that end alike**: both with values that are related, or both with errors that are. -/
inductive Agree (R : α → β → Prop) (E : ε → ε' → Prop) : Except ε α → Except ε' β → Prop
  | ok {a : α} {b : β} (h : R a b) : Agree R E (.ok a) (.ok b)
  | error {e : ε} {e' : ε'} (h : E e e') : Agree R E (.error e) (.error e')

theorem Agree.map {γ δ : Type} {x : Except ε α} {y : Except ε' β} {R : α → β → Prop} {E : ε → ε' → Prop}
    {S : γ → δ → Prop} {f : α → γ} {g : β → δ} (h : Agree R E x y) (hS : ∀ a b, R a b → S (f a) (g b)) :
    Agree S E (x.map f) (y.map g) := by
  cases h with
  | ok h => exact .ok (hS _ _ h)
  | error h => exact .error h

/-- **Computations made for each element of two lists end alike** if they do for each pair of elements. The first
failure is at the same place. -/
theorem agree_mapM {γ δ : Type} {S : γ → δ → Prop} {E : ε → ε' → Prop} {f : α → Except ε γ} {g : β → Except ε' δ}
    {as : List α} {bs : List β} (h : List.Forall₂ (fun a b => Agree S E (f a) (g b)) as bs) :
    Agree (List.Forall₂ S) E (as.mapM f) (bs.mapM g) := by
  induction h with
  | nil => exact .ok .nil
  | cons hhead _ ih =>
    rw [List.mapM_cons, List.mapM_cons]
    generalize f _ = x at hhead ⊢
    generalize g _ = y at hhead ⊢
    cases hhead with
    | error h => exact .error h
    | ok hhead =>
      generalize List.mapM f _ = xs at ih ⊢
      generalize List.mapM g _ = ys at ih ⊢
      cases ih with
      | error h => exact .error h
      | ok htail => exact .ok (.cons hhead htail)

end SqlJson.Except
