import SqlJson.Proofs.Except
import SqlJson.Proofs.Json.Forms

/-!
# How the reader of JSON fails

A text that is not JSON is refused with a fault and a place, and a number that cannot be stored with the
reason. Nothing else makes reading fail.

* `Error.Ordinary`: the errors that are meant for a caller.
* `raises_read`: reading fails with these only.
-/

namespace SqlJson

open SqlJson.Except

/-- **An error meant for a caller**: any but one about a state that should not be reached. -/
def Error.Ordinary (error : Error) : Prop := ∀ what, error ≠ .internal what

namespace Number

variable {E : Error → Prop} (hloss : ∀ loss, E (.precision loss)) (hword : ∀ word, E (.argument (.notNumeric word)))

include hloss in
theorem raises_ofDecimal (d : Decimal) (literal : String) (mode : Option WideMode) :
    Raises (ofDecimal d literal mode) E := by
  unfold ofDecimal
  split
  · exact raises_ok _
  split
  · exact raises_ok _
  split
  · exact raises_error (hloss _)
  · dsimp only
    split_ifs
    · exact raises_ok _
    · exact raises_error (hloss _)
  · exact raises_ok _

include hloss hword in
/-- A number is refused because of a loss, or because it is none. -/
theorem raises_ofLiteral (literal : String) (mode : Option WideMode) : Raises (ofLiteral literal mode) E := by
  unfold ofLiteral
  split
  · exact raises_ofDecimal hloss _ literal mode
  · exact raises_error (hword literal)

end Number

namespace Json

/-- A failure of a reader that is a fault of the text, or a number refused with such an error. -/
def Failure.Only (E : Error → Prop) : Failure → Prop
  | malformed .. => True
  | number error => E error

variable {α : Type} {fault : Fault} {rest : List Char} {E : Error → Prop}

theorem raises_fail : Raises (fail fault rest : Reading α) (Failure.Only E) := raises_error trivial

/-! ## Tokens -/

theorem raises_readKeyword (keyword : String) (value : Json) (cs : List Char) :
    Raises (readKeyword keyword value cs) (Failure.Only E) := by
  unfold readKeyword
  split_ifs
  · exact raises_ok _
  · exact raises_fail

theorem raises_readHex (n value : ℕ) (cs : List Char) : Raises (readHex n value cs) (Failure.Only E) := by
  fun_induction readHex n value cs with
  | case1 => exact raises_ok _
  | case2 => exact raises_fail
  | case3 _ _ _ _ _ _ ih => exact ih
  | case4 => exact raises_fail

theorem raises_readUnicode (escape cs : List Char) : Raises (readUnicode escape cs) (Failure.Only E) := by
  refine (raises_readHex 4 0 cs).bind fun (unit, rest) => ?_
  dsimp only
  split_ifs
  · split
    · refine (raises_readHex 4 0 _).bind fun (low, rest) => ?_
      dsimp only
      split_ifs
      · exact raises_ok _
      · exact raises_fail
    · exact raises_fail
  · exact raises_fail
  · exact raises_ok _

theorem raises_readEscape (escape cs : List Char) : Raises (readEscape escape cs) (Failure.Only E) := by
  cases cs with
  | nil => exact raises_fail
  | cons c rest =>
    rw [readEscape_cons]
    split
    · exact raises_ok _
    · split_ifs
      · exact raises_readUnicode escape rest
      · exact raises_fail

theorem raises_readStringFrom (opening : List Char) (fuel : ℕ) (before cs : List Char) :
    Raises (readStringFrom opening fuel before cs) (Failure.Only E) := by
  fun_induction readStringFrom opening fuel before cs with
  | case1 => exact raises_fail
  | case2 => exact raises_fail
  | case3 => exact raises_ok _
  | case4 before fuel rest ih => exact (raises_readEscape _ rest).bind fun (c, rest) => ih c rest
  | case5 => exact raises_fail
  | case6 _ _ _ _ _ _ _ ih => exact ih

theorem raises_readString (opening : List Char) : Raises (readString opening) (Failure.Only E) :=
  (raises_readStringFrom opening _ _ _).bind fun _ => raises_ok _

theorem raises_readWhole (cs : List Char) : Raises (readWhole cs) (Failure.Only E) := by
  unfold readWhole
  split
  · split_ifs
    · exact raises_ok _
    · exact raises_fail
  · dsimp only
    split_ifs
    · exact raises_fail
    · exact raises_ok _

theorem raises_readFraction (cs : List Char) : Raises (readFraction cs) (Failure.Only E) := by
  unfold readFraction
  split
  · dsimp only
    split_ifs
    · exact raises_fail
    · exact raises_ok _
  · exact raises_ok _

theorem raises_readExponent (cs : List Char) : Raises (readExponent cs) (Failure.Only E) := by
  unfold readExponent
  split
  · dsimp only
    split_ifs
    · exact raises_fail
    · exact raises_ok _
    · exact raises_ok _
  · exact raises_ok _

section

variable (hE : ∀ literal mode, Raises (Number.ofLiteral literal mode) E)
include hE

theorem raises_classify (mode : Option WideMode) (negative : Bool) (whole fraction exponent : List Char) :
    Raises (classify mode negative whole fraction exponent) E := by
  unfold classify
  dsimp only
  split
  · split
    · exact raises_ok _
    · exact hE _ mode
  · exact hE _ mode

theorem raises_readNumber (mode : Option WideMode) (cs : List Char) :
    Raises (readNumber mode cs) (Failure.Only E) := by
  unfold readNumber
  dsimp only
  refine (raises_readWhole _).bind fun (whole, rest) => ?_
  refine (raises_readFraction rest).bind fun (fraction, rest) => ?_
  refine (raises_readExponent rest).bind fun (exponent, rest) => ?_
  dsimp only
  split
  · exact raises_ok _
  · rename_i error herror
    exact raises_error (raises_classify hE mode _ whole fraction exponent error herror)

end

/-! ## Values -/

theorem raises_readKey (cs : List Char) : Raises (readKey cs) (Failure.Only E) := by
  unfold readKey
  split
  · exact raises_readString _
  · exact raises_fail

section

variable {options : Options} {fuel : ℕ}
  (hvalue : ∀ depth cs, Raises (readValue options fuel depth cs) (Failure.Only E))
include hvalue

theorem raises_readPadded (depth : ℕ) (cs : List Char) :
    Raises (readPadded options fuel depth cs) (Failure.Only E) :=
  (hvalue depth _).bind fun _ => raises_ok _

theorem raises_readMember (depth : ℕ) (cs : List Char) :
    Raises (readMember options fuel depth cs) (Failure.Only E) := by
  refine (raises_readKey cs).bind fun (key, rest) => ?_
  dsimp only
  split
  · exact (raises_readPadded hvalue depth _).bind fun _ => raises_ok _
  · exact raises_fail

end

/-! ## One unit of fuel more -/

section

variable {options : Options} {fuel : ℕ}

section

variable (hitems : ∀ depth before cs, Raises (readItems options fuel depth before cs) (Failure.Only E))
include hitems

theorem raises_readArray (depth : ℕ) (cs : List Char) : Raises (readArray options fuel depth cs) (Failure.Only E) := by
  unfold readArray
  split
  · exact raises_ok _
  · exact hitems _ _ _

theorem raises_readItems_succ (hvalue : ∀ depth cs, Raises (readValue options fuel depth cs) (Failure.Only E))
    (depth : ℕ) (before : List Json) (cs : List Char) :
    Raises (readItems options (fuel + 1) depth before cs) (Failure.Only E) := by
  rw [readItems_succ]
  refine (raises_readPadded hvalue depth cs).bind fun padded => ?_
  dsimp only
  split
  · exact raises_fail
  · exact hitems _ _ _
  · exact raises_ok _
  · exact raises_fail

end

section

variable (hmembers : ∀ depth before cs, Raises (readMembers options fuel depth before cs) (Failure.Only E))
include hmembers

theorem raises_readObject (depth : ℕ) (cs : List Char) :
    Raises (readObject options fuel depth cs) (Failure.Only E) := by
  unfold readObject
  split
  · exact raises_ok _
  · exact hmembers _ _ _

theorem raises_readMembers_succ (hvalue : ∀ depth cs, Raises (readValue options fuel depth cs) (Failure.Only E))
    (depth : ℕ) (before : Members) (cs : List Char) :
    Raises (readMembers options (fuel + 1) depth before cs) (Failure.Only E) := by
  rw [readMembers_succ]
  refine (raises_readMember hvalue depth cs).bind fun member => ?_
  dsimp only
  split
  · exact raises_fail
  · exact hmembers _ _ _
  · exact raises_ok _
  · exact raises_fail

end

theorem raises_readValue_succ (hE : ∀ literal mode, Raises (Number.ofLiteral literal mode) E)
    (hitems : ∀ depth before cs, Raises (readItems options fuel depth before cs) (Failure.Only E))
    (hmembers : ∀ depth before cs, Raises (readMembers options fuel depth before cs) (Failure.Only E)) (depth : ℕ)
    (cs : List Char) : Raises (readValue options (fuel + 1) depth cs) (Failure.Only E) := by
  cases opening cs with
  | empty =>
    rw [readValue_nil]
    exact raises_fail
  | null =>
    rw [readValue_null]
    exact raises_readKeyword _ _ _
  | true =>
    rw [readValue_true]
    exact raises_readKeyword _ _ _
  | false =>
    rw [readValue_false]
    exact raises_readKeyword _ _ _
  | string =>
    rw [readValue_string]
    exact (raises_readString _).bind fun _ => raises_ok _
  | array =>
    rw [readValue_array]
    split_ifs
    · exact raises_fail
    · exact raises_readArray hitems _ _
  | object =>
    rw [readValue_object]
    split_ifs
    · exact raises_fail
    · exact raises_readObject hmembers _ _
  | other hc =>
    rw [readValue_other hc]
    split_ifs
    · exact raises_readNumber hE options.mode _
    · exact raises_fail

end

/-! ## Whole texts -/

section

variable (hE : ∀ literal mode, Raises (Number.ofLiteral literal mode) E)
include hE

/-- By induction on the fuel, which the readers of values, elements and members share. -/
theorem raises_readValue (options : Options) (fuel : ℕ) :
    (∀ depth cs, Raises (readValue options fuel depth cs) (Failure.Only E)) ∧
      (∀ depth before cs, Raises (readItems options fuel depth before cs) (Failure.Only E)) ∧
      ∀ depth before cs, Raises (readMembers options fuel depth before cs) (Failure.Only E) := by
  induction fuel with
  | zero => exact ⟨fun _ _ => raises_fail, fun _ _ _ => raises_fail, fun _ _ _ => raises_fail⟩
  | succ fuel ih =>
    obtain ⟨hvalue, hitems, hmembers⟩ := ih
    exact ⟨raises_readValue_succ hE hitems hmembers, raises_readItems_succ hitems hvalue,
      raises_readMembers_succ hmembers hvalue⟩

theorem raises_readChars (options : Options) (cs : List Char) :
    Raises (readChars options cs) (Failure.Only E) := by
  refine ((raises_readValue hE options _).1 0 _).bind fun (value, rest) => ?_
  dsimp only
  split
  · exact raises_ok _
  · exact raises_error trivial

end

/-- **Reading a text fails with errors meant for a caller only.** -/
theorem raises_read (options : Options) (text : String) : Raises (read options text) Error.Ordinary := by
  have hnumber : ∀ literal mode, Raises (Number.ofLiteral literal mode) Error.Ordinary :=
    Number.raises_ofLiteral (fun _ _ => nofun) fun _ _ => nofun
  refine (raises_readChars hnumber options text.toList).mapError fun failure hfailure => ?_
  cases failure with
  | malformed fault rest => exact fun _ => nofun
  | number error => exact hfailure

end Json

end SqlJson
