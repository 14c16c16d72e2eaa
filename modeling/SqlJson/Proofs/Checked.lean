import SqlJson.Proofs.Except
import SqlJson.Proofs.Text.Digits

/-!
# Arithmetic that can go wrong

Integers of a machine have a range, a place in a text is not negative and not behind its end, and a loop may be given a
bound. Here each operation says so when it is used outside its domain. What is written with these operations and never
faults needs none of the checks.

* `Fault`, `Checked`: what can go wrong, and computations in which it can.
* `int64`, `int128`, `withSign`, `decrement`, `toIndex`, `cut`: operations that check their domain.
* `int64_of_mem`, `int128_of_natAbs_le`, `cut_of_le`: where they go through.
-/

namespace SqlJson

/-- **What can go wrong** where nothing is checked. -/
inductive Fault where
  /-- A number does not fit its type. -/
  | overflow
  /-- A negative number is taken for a place. -/
  | negative
  /-- A place is outside the text, or inside one of its characters. -/
  | outside
  /-- A loop runs more often than it may. -/
  | endless
deriving DecidableEq, Repr

/-- A computation in which each step may go wrong. -/
abbrev Checked (α : Type) : Type := Except Fault α

/-- A number that has to fit a signed integer of 64 bits. -/
def int64 (n : Int) : Checked Int :=
  if minExponent ≤ n ∧ n ≤ maxExponent then .ok n else .error .overflow

/-- A number that has to fit a signed integer of 128 bits. -/
def int128 (n : Int) : Checked Int :=
  if -(Decimal.maxInt128 : Int) - 1 ≤ n ∧ n ≤ Decimal.maxInt128 then .ok n else .error .overflow

/-- An absolute value with a sign. Only the negation has to fit. -/
def withSign (fit : Int → Checked Int) (negative : Bool) (magnitude : Int) : Checked Int :=
  if negative then fit (-magnitude) else .ok magnitude

/-- The number before a natural number. -/
def decrement : Nat → Checked Nat
  | 0 => .error .overflow
  | n + 1 => .ok n

/-- A number taken for a place. -/
def toIndex (n : Int) : Checked Nat := if 0 ≤ n then .ok n.toNat else .error .negative

/-- What stands before a place and from there on. -/
def cut (cs : List Char) (n : Nat) : Checked (List Char × List Char) :=
  if n ≤ cs.length then .ok (cs.take n, cs.drop n) else .error .outside

/-- The value of a digit: its distance from the digit zero, which must not stand behind it. -/
def digitValue (c : Char) : Checked Nat :=
  if '0'.toNat ≤ c.toNat then .ok (c.toNat - '0'.toNat) else .error .overflow

variable {α β : Type} {n : ℤ} {k : ℕ} {c : Char} {cs : List Char}

@[simp] theorem ok_bind (a : α) (f : α → Checked β) : (Except.ok a >>= f) = f a := rfl

@[simp] theorem pure_eq_ok (a : α) : (pure a : Checked α) = .ok a := rfl

theorem int64_of_mem (h₁ : minExponent ≤ n) (h₂ : n ≤ maxExponent) : int64 n = .ok n := if_pos ⟨h₁, h₂⟩

theorem int128_of_natAbs_le (h : n.natAbs ≤ Decimal.maxInt128) : int128 n = .ok n := by
  apply if_pos
  omega

theorem withSign_of_ok {fit : ℤ → Checked ℤ} (negative : Bool) (h : fit (-n) = .ok (-n)) :
    withSign fit negative n = .ok (if negative then -n else n) := by
  unfold withSign
  split_ifs
  · exact h
  · rfl

@[simp] theorem toIndex_natCast (k : ℕ) : toIndex k = .ok k := by
  rw [toIndex, if_pos (Int.natCast_nonneg k), Int.toNat_natCast]

theorem cut_of_le (h : k ≤ cs.length) : cut cs k = .ok (cs.take k, cs.drop k) := if_pos h

theorem digitValue_of_isDigit (h : c.isDigit) : digitValue c = .ok (c.toNat - '0'.toNat) :=
  if_pos (Char.isDigit_iff_toNat.1 h).1

end SqlJson
