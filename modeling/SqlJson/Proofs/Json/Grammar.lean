import Mathlib.Tactic
import SqlJson.Json.Basic

/-!
# The grammar of JSON texts

RFC 8259 as relations between texts and what they stand for, written down without regard to any
reader. A text may stand for a document in one way only, but that is no part of the grammar.

* `Quoted`: a string in quotes and its content.
* `Literal`: a number as it is written.
* `Derives`: a piece of a text and what it stands for, with a bound on the arrays and objects that
  stand in one another.
* `Denotes`: a whole text and its document.
* `firstOfKeys`: of members with equal keys the first one, in the order of first occurrence.
-/

namespace SqlJson.Json.Grammar

/-- Blanks between tokens. -/
def Blanks (cs : List Char) : Prop := ∀ c ∈ cs, c = ' ' ∨ c = '\t' ∨ c = '\n' ∨ c = '\r'

theorem blanks_nil : Blanks [] := by simp [Blanks]

/-! ## Strings -/

/-- A hexadecimal digit of either case and its value. -/
def HexDigit (c : Char) (n : ℕ) : Prop :=
  "0123456789abcdef".toList[n]? = some c ∨ "0123456789ABCDEF".toList[n]? = some c

instance (c : Char) (n : ℕ) : Decidable (HexDigit c n) := inferInstanceAs (Decidable (_ ∨ _))

/-- Four hexadecimal digits and the code unit they stand for. -/
inductive CodeUnit : List Char → ℕ → Prop
  | mk {a b c d : Char} {i j k l : ℕ} (ha : HexDigit a i) (hb : HexDigit b j) (hc : HexDigit c k)
      (hd : HexDigit d l) : CodeUnit [a, b, c, d] (4096 * i + 256 * j + 16 * k + l)

/-- The code units that begin a surrogate pair. -/
def IsHigh (n : ℕ) : Prop := 0xD800 ≤ n ∧ n ≤ 0xDBFF

/-- The code units that end a surrogate pair. -/
def IsLow (n : ℕ) : Prop := 0xDC00 ≤ n ∧ n ≤ 0xDFFF

/-- The escapes of two characters: what follows the backslash, and what it stands for. -/
def shortEscapes : List (Char × Char) :=
  [('"', '"'), ('\\', '\\'), ('/', '/'), ('b', '\x08'), ('f', '\x0c'), ('n', '\n'), ('r', '\r'),
    ('t', '\t')]

/-- **The ways to write one character of a string.** No character is a surrogate, so a code unit
that is one stands for something only as a half of a pair. -/
inductive Letter : List Char → Char → Prop
  | plain {c : Char} (hc : 0x20 ≤ c.toNat) (hq : c ≠ '"') (hb : c ≠ '\\') : Letter [c] c
  | short {e c : Char} (h : (e, c) ∈ shortEscapes) : Letter ['\\', e] c
  | unit {ds : List Char} {c : Char} (h : CodeUnit ds c.toNat) : Letter ('\\' :: 'u' :: ds) c
  | pair {ds es : List Char} {high low : ℕ} {c : Char} (hd : CodeUnit ds high) (hh : IsHigh high)
      (he : CodeUnit es low) (hl : IsLow low)
      (hc : c.toNat = 0x10000 + 0x400 * (high - 0xD800) + (low - 0xDC00)) :
      Letter ('\\' :: 'u' :: ds ++ '\\' :: 'u' :: es) c

/-- Characters of a string as they are written, one after another. -/
inductive Letters : List Char → List Char → Prop
  | nil : Letters [] []
  | cons {w ws : List Char} {c : Char} {cs : List Char} (h : Letter w c) (hs : Letters ws cs) :
      Letters (w ++ ws) (c :: cs)

/-- **A string in quotes and its content.** -/
inductive Quoted : List Char → String → Prop
  | mk {ws cs : List Char} (h : Letters ws cs) : Quoted ('"' :: ws ++ ['"']) (String.ofList cs)

/-! ## Numbers -/

/-- One digit or more. -/
def Digits (ds : List Char) : Prop := ds ≠ [] ∧ ∀ d ∈ ds, d.isDigit

/-- The digits before the point: a zero alone, or digits that begin with no zero. -/
inductive Whole : List Char → Prop
  | zero : Whole ['0']
  | digits {d : Char} {ds : List Char} (h : Digits (d :: ds)) (h0 : d ≠ '0') : Whole (d :: ds)

/-- A point and digits, or nothing. -/
inductive Fraction : List Char → Prop
  | absent : Fraction []
  | present {ds : List Char} (h : Digits ds) : Fraction ('.' :: ds)

/-- An exponent, or nothing. -/
inductive Exponent : List Char → Prop
  | absent : Exponent []
  | present {e : Char} {sign ds : List Char} (he : e = 'e' ∨ e = 'E')
      (hs : sign = [] ∨ sign = ['+'] ∨ sign = ['-']) (h : Digits ds) : Exponent (e :: sign ++ ds)

/-- **A number as it is written.** -/
inductive Literal : List Char → Prop
  | mk {sign whole fraction exponent : List Char} (hs : sign = [] ∨ sign = ['-']) (hw : Whole whole)
      (hf : Fraction fraction) (he : Exponent exponent) :
      Literal (sign ++ whole ++ fraction ++ exponent)

/-! ## Values -/

/-- **Members with their repetitions removed**: of members with equal keys only the first is kept,
and the others keep their order. -/
def firstOfKeys : Members → Members
  | [] => []
  | (key, value) :: rest => (key, value) :: (firstOfKeys rest).filter (·.1 ≠ key)

/-- What a piece of text stands for: a value, a value with blanks around it, a member, and one or
more elements or members with commas between them. -/
inductive Form where
  | value (v : Json)
  | padded (v : Json)
  | member (key : String) (v : Json)
  | elements (items : List Json)
  | members (members : Members)

/-- **The pieces of JSON texts** in which at most so many arrays and objects stand in one another.
A number is stored as `mode` says. -/
inductive Derives (mode : Option WideMode) : ℕ → List Char → Form → Prop
  | null {d : ℕ} : Derives mode d ['n', 'u', 'l', 'l'] (.value .null)
  | true {d : ℕ} : Derives mode d ['t', 'r', 'u', 'e'] (.value (.bool true))
  | false {d : ℕ} : Derives mode d ['f', 'a', 'l', 's', 'e'] (.value (.bool false))
  | number {d : ℕ} {cs : List Char} {n : Number} (h : Literal cs)
      (hn : Number.ofLiteral (String.ofList cs) mode = .ok n) : Derives mode d cs (.value (.number n))
  | string {d : ℕ} {cs : List Char} {s : String} (h : Quoted cs s) :
      Derives mode d cs (.value (.string s))
  | emptyArray {d : ℕ} {bs : List Char} (h : Blanks bs) :
      Derives mode (d + 1) ('[' :: bs ++ [']']) (.value (.array []))
  | array {d : ℕ} {cs : List Char} {items : List Json} (h : Derives mode d cs (.elements items)) :
      Derives mode (d + 1) ('[' :: cs ++ [']']) (.value (.array items))
  | emptyObject {d : ℕ} {bs : List Char} (h : Blanks bs) :
      Derives mode (d + 1) ('\x7b' :: bs ++ ['\x7d']) (.value (.object []))
  | object {d : ℕ} {cs : List Char} {members : Members} (h : Derives mode d cs (.members members)) :
      Derives mode (d + 1) ('\x7b' :: cs ++ ['\x7d']) (.value (.object (firstOfKeys members)))
  | padded {d : ℕ} {b₁ cs b₂ : List Char} {v : Json} (h₁ : Blanks b₁)
      (h : Derives mode d cs (.value v)) (h₂ : Blanks b₂) : Derives mode d (b₁ ++ cs ++ b₂) (.padded v)
  | member {d : ℕ} {b₁ ks b₂ cs : List Char} {key : String} {v : Json} (h₁ : Blanks b₁)
      (hk : Quoted ks key) (h₂ : Blanks b₂) (h : Derives mode d cs (.padded v)) :
      Derives mode d (b₁ ++ ks ++ b₂ ++ ':' :: cs) (.member key v)
  | oneElement {d : ℕ} {cs : List Char} {v : Json} (h : Derives mode d cs (.padded v)) :
      Derives mode d cs (.elements [v])
  | moreElements {d : ℕ} {cs rest : List Char} {v : Json} {items : List Json}
      (h : Derives mode d cs (.padded v)) (hs : Derives mode d rest (.elements items)) :
      Derives mode d (cs ++ ',' :: rest) (.elements (v :: items))
  | oneMember {d : ℕ} {cs : List Char} {key : String} {v : Json}
      (h : Derives mode d cs (.member key v)) : Derives mode d cs (.members [(key, v)])
  | moreMembers {d : ℕ} {cs rest : List Char} {key : String} {v : Json} {members : Members}
      (h : Derives mode d cs (.member key v)) (hs : Derives mode d rest (.members members)) :
      Derives mode d (cs ++ ',' :: rest) (.members ((key, v) :: members))

/-- **A whole text and its document**: a value with blanks around it. -/
def Denotes (mode : Option WideMode) (d : ℕ) (text : List Char) (v : Json) : Prop :=
  Derives mode d text (.padded v)

end SqlJson.Json.Grammar
