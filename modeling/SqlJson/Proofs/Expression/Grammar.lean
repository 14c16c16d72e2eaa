import SqlJson.Expression.Syntax
import SqlJson.Proofs.Text.Integer

/-!
# The grammar of expressions

Tokens and the expressions they stand for, and string literals and their texts, written down without regard to
any reader. What a name begins is told by the name and the token behind it.

* `Spelled`: a string literal as it is written between its quotes.
* `Numeral`: the value of a number.
* `Derives`: some tokens and what they stand for.
-/

namespace SqlJson.Expression.Grammar

open Text

/-! ## Strings -/

/-- **A string literal as it is written between its quotes**, and its characters. A backslash escapes the quote
and itself; before anything else it stands for itself. -/
inductive Spelled (quote : Char) : List Char → List Char → Prop
  | nil : Spelled quote [] []
  | plain {c : Char} {ws cs : List Char} (hq : c ≠ quote) (hb : c ≠ '\\') (h : Spelled quote ws cs) :
      Spelled quote (c :: ws) (c :: cs)
  | escape {c : Char} {ws cs : List Char} (hc : c = quote ∨ c = '\\') (h : Spelled quote ws cs) :
      Spelled quote ('\\' :: c :: ws) (c :: cs)
  | kept {c : Char} {ws cs : List Char} (hq : c ≠ quote) (hb : c ≠ '\\') (h : Spelled quote ws cs) :
      Spelled quote ('\\' :: c :: ws) ('\\' :: c :: cs)

/-- A text with a backslash before each quote and each backslash. -/
def escaped (quote : Char) (cs : List Char) : List Char :=
  cs.flatMap fun c => if c = quote ∨ c = '\\' then ['\\', c] else [c]

/-! ## Numbers and names -/

/-- The integers of type `BIGINT`. -/
def IsBigint (n : ℤ) : Prop := -2 ^ 63 ≤ n ∧ n < 2 ^ 63

/-- Whether a number has a point or an exponent. -/
def IsFloating (cs : List Char) : Prop := ∃ c ∈ cs, c = '.' ∨ c = 'e' ∨ c = 'E'

/-- **The value of a number.** -/
inductive Numeral : List Char → SqlValue → Prop
  | bigint {cs : List Char} {n : ℤ} (h : Integral cs n) (hn : IsBigint n) : Numeral cs (.bigint (Int64.ofInt n))
  | numeric {cs : List Char} {n : ℤ} (h : Integral cs n) (hn : ¬IsBigint n) : Numeral cs (.numeric (Decimal.ofInt n))
  | double {cs : List Char} {x : Binary .double} (h : IsFloating cs) (hx : Binary.ofChars? .double cs = some x) :
      Numeral cs (.double x)

/-- A word in any case. -/
def IsWord (name word : String) : Prop := sameIgnoringCase name word = true

/-- The names that are literals, whatever stands behind them. -/
def IsConstant (name : String) : Prop := IsWord name "null" ∨ IsWord name "true" ∨ IsWord name "false"

/-! ## Expressions -/

/-- What some tokens stand for: an expression, an argument, a field, one or more of these with commas between
them, or arguments in parentheses. Fields are numbered. -/
inductive Form where
  | expression (e : Expression)
  | items (items : List Expression)
  | argument (name : Option String) (value : Expression)
  | arguments (args : List (Option String × Expression))
  | parenthesized (args : List (Option String × Expression))
  | field (n : ℕ) (name : String) (value : Expression)
  | fields (n : ℕ) (fields : List (String × Expression))

/-- **Some tokens and what they stand for.** -/
inductive Derives : List Token → Form → Prop
  | number {text : String} {v : SqlValue} (h : Numeral text.toList v) :
      Derives [.number text] (.expression (.literal v))
  | negative {text : String} {v : SqlValue} (h : Numeral ('-' :: text.toList) v) :
      Derives [.minus, .number text] (.expression (.literal v))
  | string {text : String} : Derives [.string text] (.expression (.literal (.varchar text)))
  | null {name : String} (h : IsWord name "null") : Derives [.ident name] (.expression (.literal .null))
  | true {name : String} (h : IsWord name "true") : Derives [.ident name] (.expression (.literal (.bool true)))
  | false {name : String} (h : IsWord name "false") : Derives [.ident name] (.expression (.literal (.bool false)))
  | typed {name text : String} {type : SqlType} (hc : ¬IsConstant name) (h : IsWord name type.name) :
      Derives [.ident name, .string text] (.expression (.typed type text))
  | emptyArray : Derives [.leftBracket, .rightBracket] (.expression (.array []))
  | array {ts : List Token} {items : List Expression} (h : Derives ts (.items items)) :
      Derives (.leftBracket :: ts ++ [.rightBracket]) (.expression (.array items))
  | emptyStruct {name : String} (h : IsWord name "struct") :
      Derives [.ident name, .leftParen, .rightParen] (.expression (.struct []))
  | struct {name : String} {ts : List Token} {fields : List (String × Expression)} (h : IsWord name "struct")
      (hf : Derives ts (.fields 1 fields)) :
      Derives (.ident name :: .leftParen :: ts ++ [.rightParen]) (.expression (.struct fields))
  | call {name : String} {ts : List Token} {args : List (Option String × Expression)} (hc : ¬IsConstant name)
      (hs : ¬IsWord name "struct") (h : Derives ts (.parenthesized args)) :
      Derives (.ident name :: ts) (.expression (.call name false args))
  | safeCall {word name : String} {ts : List Token} {args : List (Option String × Expression)}
      (hw : IsWord word "safe") (h : Derives ts (.parenthesized args)) :
      Derives (.ident word :: .dot :: .ident name :: ts) (.expression (.call name true args))
  | noArguments : Derives [.leftParen, .rightParen] (.parenthesized [])
  | parenthesized {ts : List Token} {args : List (Option String × Expression)} (h : Derives ts (.arguments args)) :
      Derives (.leftParen :: ts ++ [.rightParen]) (.parenthesized args)
  | oneItem {ts : List Token} {e : Expression} (h : Derives ts (.expression e)) : Derives ts (.items [e])
  | moreItems {ts rest : List Token} {e : Expression} {items : List Expression} (h : Derives ts (.expression e))
      (hs : Derives rest (.items items)) : Derives (ts ++ .comma :: rest) (.items (e :: items))
  | positional {ts : List Token} {e : Expression} (h : Derives ts (.expression e)) : Derives ts (.argument none e)
  | named {name : String} {ts : List Token} {e : Expression} (h : Derives ts (.expression e)) :
      Derives (.ident name :: .arrow :: ts) (.argument (some name) e)
  | oneArgument {ts : List Token} {name : Option String} {e : Expression} (h : Derives ts (.argument name e)) :
      Derives ts (.arguments [(name, e)])
  | moreArguments {ts rest : List Token} {name : Option String} {e : Expression}
      {args : List (Option String × Expression)} (h : Derives ts (.argument name e))
      (hs : Derives rest (.arguments args)) : Derives (ts ++ .comma :: rest) (.arguments ((name, e) :: args))
  | unnamedField {n : ℕ} {ts : List Token} {e : Expression} (h : Derives ts (.expression e)) :
      Derives ts (.field n ("_field_" ++ toString n) e)
  | namedField {n : ℕ} {word name : String} {ts : List Token} {e : Expression} (h : Derives ts (.expression e))
      (hw : IsWord word "as") : Derives (ts ++ [.ident word, .ident name]) (.field n name e)
  | oneField {n : ℕ} {name : String} {ts : List Token} {e : Expression} (h : Derives ts (.field n name e)) :
      Derives ts (.fields n [(name, e)])
  | moreFields {n : ℕ} {name : String} {ts rest : List Token} {e : Expression}
      {fields : List (String × Expression)} (h : Derives ts (.field n name e))
      (hs : Derives rest (.fields (n + 1) fields)) :
      Derives (ts ++ .comma :: rest) (.fields n ((name, e) :: fields))

end SqlJson.Expression.Grammar
