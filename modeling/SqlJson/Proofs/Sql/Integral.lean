import SqlJson.Proofs.Binary.Integral
import SqlJson.Proofs.Sql.Extraction
import SqlJson.Sql.Encoding

/-!
# Doubles as integers

A double whose value is an integer is compared with stored integers, and extracted as an integer, by its shortest
decimal. That is an integer as well, but beyond `2 ^ 54` it need not be the value: the last digits may be zeros in its
place.

* `Binary.ActsAs`: a double that is taken for a given integer.
* `Binary.actsAs_iff`: it is taken for its shortest decimal.
* `Binary.integer_actsAs`: which integer a double is taken for.
* `Binary.actsAs_neighbour`: a double that is not taken for its value.
-/

namespace SqlJson

open Json

namespace Binary

variable {x : Binary .double} {s n : ℤ}

/-- **A double that is taken for an integer**: it equals that integer among those of 64 bits, on either side, and the
document that is made of it is extracted as that integer, wherever it fits. -/
structure ActsAs (x : Binary .double) (z : ℤ) : Prop where
  equal : ∀ m k, Number.ofInt? m = some k → ((Number.double x).numericEq k = true ↔ m = z)
  equal_symm : ∀ m k, Number.ofInt? m = some k → (k.numericEq (.double x) = true ↔ m = z)
  strict : ∀ stringify mode target v, ScalarType.ofInt? target z = some v →
    ((SqlValue.double x).toJson stringify).strict target mode = .ok v
  lax : ∀ stringify target v, ScalarType.ofInt? target z = some v →
    ((SqlValue.double x).toJson stringify).lax target = v

/-- The document that is made of a finite double is that double. -/
theorem toJson_double (hx : x.isFinite) (stringify : Bool) :
    (SqlValue.double x).toJson stringify = number (.double x) := by
  simp only [SqlValue.toJson, Number.ofDouble?, if_pos hx]

/-- **A double is taken for the integer that is its shortest decimal.** -/
theorem actsAs_of_shortest? (hs : s.natAbs < 10 ^ 38) (h : x.shortest? = some (Decimal.ofInt s)) : x.ActsAs s := by
  have hx := isFinite_of_shortest? h
  have hwell : (Number.double x).IsWellFormed := hx
  have hdecimal : (Number.double x).toDecimal = Decimal.ofInt s := Number.toDecimal_of_shortest? h
  have hint : (Number.double x).toDecimal.toInt? = some s := by rw [hdecimal, Decimal.toInt?_ofInt hs]
  have hequal : ∀ m k, Number.ofInt? m = some k → ((Number.double x).toDecimal = k.toDecimal ↔ m = s) := by
    intro m k hk
    rw [hdecimal, Number.toDecimal_of_ofInt? hk]
    constructor
    · exact fun heq => (Decimal.ofInt_inj hs (Number.lt_of_ofInt? hk) heq).symm
    · rintro rfl
      rfl
  refine ⟨fun m k hk => ?_, fun m k hk => ?_, fun stringify mode target v hv => ?_, fun stringify target v hv => ?_⟩
  · rw [Number.numericEq_eq hwell (Number.isPlain_of_ofInt? hk).1, decide_eq_true_iff, hequal m k hk]
  · rw [Number.numericEq_eq (Number.isPlain_of_ofInt? hk).1 hwell, decide_eq_true_iff, eq_comm, hequal m k hk]
  · rw [toJson_double hx]
    exact strict_of_toInt? hint hv
  · rw [toJson_double hx]
    exact lax_of_laxInteger? (Decimal.roundHalfAway?_of_toInt? hint) hv

/-- **A double is taken for an integer of 64 bits if that is its shortest decimal.** -/
theorem actsAs_iff (hx : x.isFinite) (hlow : -2 ^ 63 ≤ n) (hhigh : n < 2 ^ 64) :
    x.ActsAs n ↔ x.shortest? = some (Decimal.ofInt n) := by
  obtain ⟨k, hk⟩ := Number.exists_ofInt? hlow hhigh
  constructor
  · intro h
    have heq := Number.toDecimal_eq_of_numericEq ((h.equal n k hk).2 rfl)
    rw [Number.toDecimal_double hx, heq, Number.toDecimal_of_ofInt? hk]
  · exact actsAs_of_shortest? (Number.lt_of_ofInt? hk)

/-- **Which integer a double is taken for.** A double whose value is an integer of 64 bits is taken for some integer in
comparisons and extractions alike, the one that is its shortest decimal. It is its own value if and only if the shortest
decimal is the value, and it is up to `2 ^ 54`. -/
theorem integer_actsAs (hx : x.isFinite) (hvalue : x.value = n) (hlow : -2 ^ 63 ≤ n) (hhigh : n < 2 ^ 64) :
    (∃ s, x.shortest? = some (Decimal.ofInt s) ∧ x.ActsAs s) ∧
    (x.ActsAs n ↔ x.shortest? = some (Decimal.ofInt n)) ∧
    (|n| ≤ 2 ^ 54 → x.ActsAs n) := by
  have hn : |n| ≤ 2 ^ 64 := abs_le.2 ⟨by omega, by omega⟩
  obtain ⟨s, hs, hshortest, hsmall⟩ := exists_shortest?_eq_ofInt hx hvalue hn
  have hacts := actsAs_of_shortest? hs hshortest
  exact ⟨⟨s, hshortest, hacts⟩, actsAs_iff hx hlow hhigh, fun h => hsmall h ▸ hacts⟩

/-- At the end of that range. -/
theorem integer_actsAs_bound : (ofIndex false 4850376798678024192 : Binary .double).value = (2 ^ 54 : ℤ) ∧
    (ofIndex false 4850376798678024192 : Binary .double).ActsAs (2 ^ 54) := by
  have hint : (ofIndex false 4850376798678024192 : Binary .double).toInt? = some (2 ^ 54) := by decide +kernel
  obtain ⟨hfinite, hvalue⟩ := value_of_toInt? hint
  exact ⟨hvalue, (integer_actsAs hfinite hvalue (by norm_num) (by norm_num)).2.2 (by norm_num)⟩

/-- **A double that is not taken for its value.** It is `2 ^ 54 + 8`, and is taken for the multiple of ten that is two
below. -/
theorem actsAs_neighbour : (ofIndex false 4850376798678024194 : Binary .double).value = (18014398509481992 : ℤ) ∧
    (ofIndex false 4850376798678024194 : Binary .double).ActsAs 18014398509481990 ∧
    ¬ (ofIndex false 4850376798678024194 : Binary .double).ActsAs 18014398509481992 := by
  have hint : (ofIndex false 4850376798678024194 : Binary .double).toInt? = some 18014398509481992 := by
    decide +kernel
  have hshortest : (ofIndex false 4850376798678024194 : Binary .double).shortest? =
      some (Decimal.ofInt 18014398509481990) := by
    decide +kernel
  obtain ⟨hfinite, hvalue⟩ := value_of_toInt? hint
  refine ⟨hvalue, actsAs_of_shortest? (by norm_num) hshortest, fun h => ?_⟩
  rw [actsAs_iff hfinite (by norm_num) (by norm_num), hshortest, Option.some.injEq] at h
  exact absurd (Decimal.ofInt_inj (by norm_num) (by norm_num) h) (by norm_num)

end Binary

end SqlJson
