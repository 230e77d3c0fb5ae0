/-!
# Numerals

An integer numeral is an optional sign and decimal digits. A decimal numeral may also have a point
and an exponent; it keeps at least one digit beside the point. Only ASCII digits count, and the
whole text has to be the numeral.
-/

namespace FlowLog

/-- The number `± coefficient * 10 ^ exponent`, as written. -/
structure Decimal where
  negative : Bool
  coefficient : Nat
  exponent : Int
  deriving DecidableEq, Repr

namespace Numeral

/-- The value of a digit character. -/
def digitValue (c : Char) : Nat := c.toNat - '0'.toNat

/-- The natural number that a sequence of digits denotes. -/
def value (digits : List Char) : Nat := digits.foldl (fun total c => total * 10 + digitValue c) 0

/-- The digits of a natural number, without leading zeros. -/
def digits (n : Nat) : List Char := Nat.toDigits 10 n

/-- The canonical numeral of an integer: no plus sign and no leading zeros. -/
def ofInt (n : Int) : List Char :=
  if n < 0 then '-' :: digits n.natAbs else digits n.natAbs

/-- Whether a text is one or more digits. -/
def isDigits (text : List Char) : Bool := !text.isEmpty && text.all Char.isDigit

/-- Separates an optional sign from what follows it; `true` stands for a minus sign. -/
def sign : List Char → Bool × List Char
  | '-' :: rest => (true, rest)
  | '+' :: rest => (false, rest)
  | text => (false, text)

/-- The integer with a given sign and magnitude. -/
def signed (negative : Bool) (magnitude : Nat) : Int :=
  if negative then -magnitude else magnitude

/-- Reads an integer numeral. -/
def integer? (text : List Char) : Option Int :=
  let (negative, magnitude) := sign text
  if isDigits magnitude then some (signed negative (value magnitude)) else none

/-- Reads the exponent part of a decimal numeral: nothing, or a mark and an integer numeral. -/
def exponent? : List Char → Option Int
  | [] => some 0
  | mark :: rest => if mark = 'e' ∨ mark = 'E' then integer? rest else none

/-- The digits after an optional point, and the rest. -/
def fraction : List Char → List Char × List Char
  | '.' :: rest => rest.span Char.isDigit
  | text => ([], text)

/-- Reads a decimal numeral. -/
def decimal? (text : List Char) : Option Decimal :=
  let (negative, magnitude) := sign text
  let (whole, afterWhole) := magnitude.span Char.isDigit
  let (part, afterPart) := fraction afterWhole
  if whole.isEmpty && part.isEmpty then none
  else (exponent? afterPart).map fun exponent =>
    { negative
      coefficient := value (whole ++ part)
      exponent := exponent - part.length }

end Numeral

end FlowLog
