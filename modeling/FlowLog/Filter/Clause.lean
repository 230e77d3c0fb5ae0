import FlowLog.Filter.Operator
import FlowLog.Text.Blank
import FlowLog.Text.Fold
import FlowLog.Text.Search

/-!
# Clauses

A clause is a field, an operator and a value. The operator is searched for in the folded text and
the clause is cut in the written text at the same position. An operator with a space on each side is
found before any operator without.
-/

namespace FlowLog

/-- The three parts of a clause. -/
structure Clause where
  field : String
  operator : Operator
  value : String
  deriving DecidableEq, Repr

namespace Clause

/-- Whether a character is a quote. -/
def isQuote (c : Char) : Bool := c == '\'' || c == '"'

/-- The text without the quotes at its two ends, however many there are. -/
def stripQuotes (text : List Char) : List Char :=
  ((text.dropWhile isQuote).reverse.dropWhile isQuote).reverse

/-- The clause cut out of a text around the operator at `position`, which takes up `width` units. -/
def cut (text : List Char) (operator : Operator) (position width : Nat) : Clause where
  field := String.ofList (Text.trim (text.take position))
  operator := operator
  value := String.ofList (stripQuotes (Text.trim (text.drop (position + width))))

/-- Searches a text for the first operator in scan order that occurs in it, each written as `word`
says. -/
def scan? (word : Operator → List Char) (text : List Char) : Option Clause :=
  Operator.scanOrder.findSome? fun operator =>
    (Text.find? (word operator) (Text.fold text)).map fun position =>
      cut text operator position (word operator).length

/-- An operator as it is searched for without regard to spaces. -/
def bare (operator : Operator) : List Char := operator.symbol.toList

/-- An operator with a space on each side. -/
def spaced (operator : Operator) : List Char := ' ' :: bare operator ++ [' ']

/-- The parts of a clause, or nothing for a text without an operator. -/
def ofText? (text : List Char) : Option Clause :=
  match scan? spaced text with
  | some clause => some clause
  | none => scan? bare text

end Clause

end FlowLog
