import FlowLog.Number.Shortest

/-!
# Literals

What a field is compared with: a text, a number, or an integer too large to be a number without
loss.
-/

namespace FlowLog

/-- A literal of a filter. -/
inductive Literal where
  | text (value : String)
  | number (value : Number)
  | big (value : Int)
  deriving DecidableEq, Repr

namespace Literal

/-- The literal that a value text stands for. An integer numeral is the number nearest to it, or a
big integer when that number is not told apart from its neighbours. Any other decimal numeral is a
number unless it overflows. All else is a text. -/
def ofText (value : String) : Literal :=
  match Numeral.integer? value.toList with
  | some n =>
      let nearest := Number.ofInt n
      if nearest.isSafeInteger then .number nearest else .big n
  | none =>
      match (Numeral.decimal? value.toList).map Number.ofDecimal with
      | some x => if x.isFinite then .number x else .text value
      | none => .text value

/-- Whether a literal is a number of either kind. -/
def isNumeric : Literal → Bool
  | .text _ => false
  | _ => true

/-- Writes a backslash in front of every single quote. -/
def escapeQuotes (value : List Char) : List Char :=
  value.flatMap fun c => if c = '\'' then ['\\', '\''] else [c]

/-- A text between single quotes, with the quotes inside escaped. -/
def quoted (value : String) : String :=
  String.ofList ('\'' :: escapeQuotes value.toList ++ ['\''])

/-- How a literal is written in a query: numbers as they are, texts quoted. -/
def render : Literal → String
  | .text value => quoted value
  | .number value => String.ofList value.text
  | .big value => String.ofList (Numeral.ofInt value)

end Literal

end FlowLog
