import SqlJson.Proofs.Json.Failures
import SqlJson.Proofs.Json.Scanning
import SqlJson.Proofs.Path.Scanner
import SqlJson.Sql.Extraction

/-!
# Scanners stay between characters

JSON, paths and the numbers of lax extraction are scanned byte by byte, and every cut is checked: its ends have to be in
order, within the text and between characters. None of the checks fails, on any text, accepted or not.

* `Json.scanLax`: the scanner of lax extraction.
* `Error.Inside`: an error at a place within the text.
* `scans_inside_text`: **no scanner goes wrong**, and no place of a fault is behind the end of the text.
-/

namespace SqlJson

open SqlJson.Except Text

/-- **An error at a place within a text.** -/
def Error.Inside (text : String) : Error → Prop
  | json _ position | path _ _ position => position ≤ text.utf8ByteSize
  | _ => True

/-- The place of a fault is not behind the end. -/
theorem position_le (text : String) (rest : List Char) :
    byteSize text.toList - byteSize rest ≤ text.utf8ByteSize := by
  rw [byteSize_toList]
  exact Nat.sub_le _ _

namespace Json

/-! ## Numbers of lax extraction -/

/-- A sign, and what is cut out behind it. -/
def scanSign (text : String) : Checked (Bool × String) :=
  match byteAt? text 0 with
  | some '-' => do
    let body ← slice text 1 text.utf8ByteSize
    return (true, body)
  | some '+' => do
    let body ← slice text 1 text.utf8ByteSize
    return (false, body)
  | _ => return (false, text)

/-- **Scans a number of lax extraction.** -/
def scanLax (text : String) : Checked (Option (Decimal ⊕ (Bool × Binary.Special))) := do
  let (negative, body) ← scanSign text
  match Binary.Special.ofChars? body.toList with
  | some special => return some (.inr (negative, special))
  | none => return (Decimal.ofString? text).map .inl

theorem scanSign_eq (text : String) : scanSign text =
    .ok ((Decimal.splitSign text.toList).1, String.ofList (Decimal.splitSign text.toList).2) := by
  have hplace := place_zero text
  have hcut {tail : List Char} (h : Place text 1 tail) : slice text 1 text.utf8ByteSize = .ok (String.ofList tail) := by
    rw [← List.append_nil tail] at h
    exact h.slice_eq (place_end text)
  unfold scanSign
  by_cases hminus : ∃ tail, text.toList = '-' :: tail
  · obtain ⟨tail, htext⟩ := hminus
    rw [htext] at hplace ⊢
    rw [hplace.byteAt?_of_lt (by decide)]
    rw [hcut (hplace.next (by decide))]
    rfl
  by_cases hplus : ∃ tail, text.toList = '+' :: tail
  · obtain ⟨tail, htext⟩ := hplus
    rw [htext] at hplace ⊢
    rw [hplace.byteAt?_of_lt (by decide)]
    rw [hcut (hplace.next (by decide))]
    rfl
  · have hnone : Decimal.splitSign text.toList = (false, text.toList) := by
      unfold Decimal.splitSign
      split <;> simp_all
    have hminus := hplace.byteAt?_ne (d := '-') (by decide) fun tail heq => hminus ⟨tail, heq⟩
    have hplus := hplace.byteAt?_ne (d := '+') (by decide) fun tail heq => hplus ⟨tail, heq⟩
    rw [hnone, String.ofList_toList]
    split
    · contradiction
    · contradiction
    · rfl

/-- **Scanning a number of lax extraction gives what reading it gives.** -/
theorem scanLax_eq (text : String) : scanLax text = .ok (laxNumber? text) := by
  unfold scanLax laxNumber?
  rw [scanSign_eq, ok_bind]
  dsimp only
  rw [String.toList_ofList]
  cases Binary.Special.ofChars? (Decimal.splitSign text.toList).2 <;> rfl

/-! ## Places of faults -/

/-- A fault of a text is found out within it. -/
theorem raises_inside_read (options : Options) (text : String) : Raises (read options text) (Error.Inside text) := by
  have hnumber : ∀ literal mode, Raises (Number.ofLiteral literal mode) (Error.Inside text) :=
    Number.raises_ofLiteral (fun _ => trivial) fun _ => trivial
  refine (raises_readChars hnumber options text.toList).mapError fun failure hfailure => ?_
  cases failure with
  | malformed fault rest => exact position_le text rest
  | number error => exact hfailure

end Json

theorem Path.raises_inside_compile (maxSteps : ℕ) (text : String) :
    Raises (compile maxSteps text) (Error.Inside text) := by
  unfold compile
  split
  · exact raises_ok _
  · rename_i fault rest _
    exact raises_error (position_le text rest)

/-- **No scanner cuts a character, or goes wrong in another way**, on any text, whether it is accepted or not: each ends
as the reader does. The places of the faults it finds are within the text. -/
theorem scans_inside_text (options : Json.Options) (maxSteps : ℕ) (text : String) :
    (Json.scan options text).run = .ok (Json.read options text) ∧
      (Path.scan maxSteps text).run = .ok (Path.compile maxSteps text) ∧
      Json.scanLax text = .ok (Json.laxNumber? text) ∧
      (∀ fault position, Json.read options text = .error (.json fault position) → position ≤ text.utf8ByteSize) ∧
      ∀ path fault position, Path.compile maxSteps text = .error (.path path fault position) →
        position ≤ text.utf8ByteSize :=
  ⟨Json.run_scan options text, Path.run_scan maxSteps text, Json.scanLax_eq text,
    fun _ _ h => Json.raises_inside_read options text _ h, fun _ _ _ h => Path.raises_inside_compile maxSteps text _ h⟩

/-- An escape and a name that break off behind a character of two bytes, and such a character behind a sign. -/
theorem scans_inside_text_truncated :
    ((Json.scan ⟨none, 512⟩ "\"é\\u00").run = .ok (.error (.json .unexpectedEnd 7)) ∧ 7 ≤ "\"é\\u00".utf8ByteSize) ∧
      ((Path.scan 256 "$.é['ö").run = .ok (.error (.path "$.é['ö" .unterminatedName 5)) ∧
        5 ≤ "$.é['ö".utf8ByteSize) ∧
      Json.scanLax "-é" = .ok none := by
  have hread : Json.read ⟨none, 512⟩ "\"é\\u00" = .error (.json .unexpectedEnd 7) := by rfl
  have hcompile : Path.compile 256 "$.é['ö" = .error (.path "$.é['ö" .unterminatedName 5) := by cbv
  have hlax : Json.laxNumber? "-é" = none := by rfl
  obtain ⟨hjson, -, -, hposition, -⟩ := scans_inside_text ⟨none, 512⟩ 256 "\"é\\u00"
  obtain ⟨-, hpath, -, -, hposition'⟩ := scans_inside_text ⟨none, 512⟩ 256 "$.é['ö"
  obtain ⟨-, -, hscan, -⟩ := scans_inside_text ⟨none, 512⟩ 256 "-é"
  rw [hread] at hjson
  rw [hcompile] at hpath
  rw [hlax] at hscan
  exact ⟨⟨hjson, hposition _ _ hread⟩, ⟨hpath, hposition' _ _ _ hcompile⟩, hscan⟩

end SqlJson
