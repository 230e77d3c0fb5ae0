import FlowLog.Numeral

/-!
# Binary floating-point numbers

A number is a value of the 64-bit binary floating-point format: an integer, a fraction with a power
of two as denominator, or an infinity. Zero has no sign here, because no answer ever shows one. The
format also has values that are not numbers, and these are left out: no numeral and no JSON value
denotes one, and as a version or a limit it would be refused like a fraction.

`Number.ofDecimal` rounds what a numeral denotes to the nearest such value, a tie going to the even
significand, and beyond the largest finite value to an infinity. Sums and differences are rounded in
the same way.
-/

namespace FlowLog

/-- A value of the 64-bit binary format. In `fraction n k` the value is `n / 2 ^ k`, where `n` is
odd and `k` is not zero. -/
inductive Number where
  | integer (value : Int)
  | fraction (numerator : Int) (scale : Nat)
  | infinite (negative : Bool)
  deriving DecidableEq, Repr, Inhabited

namespace Number

instance (n : Nat) : OfNat Number n := ⟨.integer n⟩

/-- Integers up to this magnitude are distinguished from their neighbours. -/
def maxSafe : Nat := Nat.pow 2 53 - 1

/-- The integer that a number is, if it is one. -/
def toInt? : Number → Option Int
  | .integer n => some n
  | _ => none

/-- Whether a number is an integer. -/
def isInteger (x : Number) : Bool := x.toInt?.isSome

/-- Whether a number is below zero. -/
def isNegative : Number → Bool
  | .integer n => n < 0
  | .fraction n _ => n < 0
  | .infinite negative => negative

/-- Whether a number is above zero. -/
def isPositive : Number → Bool
  | .integer n => 0 < n
  | .fraction n _ => 0 < n
  | .infinite negative => !negative

/-- Whether a number is finite. -/
def isFinite : Number → Bool
  | .infinite _ => false
  | _ => true

/-- Whether an integer is small enough to be told apart from its neighbours. -/
def isSafe (n : Int) : Bool := n.natAbs ≤ maxSafe

/-- Whether a number is an integer that is told apart from its neighbours. -/
def isSafeInteger : Number → Bool
  | .integer n => isSafe n
  | _ => false

/-- Whether a number lies between two integers, which count themselves. -/
def isBetween (low high : Int) : Number → Bool
  | .integer n => low ≤ n && n ≤ high
  | .fraction n scale => low * Nat.pow 2 scale ≤ n && n ≤ high * Nat.pow 2 scale
  | .infinite _ => false

/-- The quotient of two natural numbers rounded to the nearest natural number, a tie going to the
even one. -/
def divRound (numerator denominator : Nat) : Nat :=
  let quotient := numerator / denominator
  let twice := 2 * (numerator % denominator)
  if twice < denominator then quotient
  else if denominator < twice then quotient + 1
  else quotient + quotient % 2

/-- The largest `e` with `2 ^ e ≤ numerator / denominator`, for positive arguments. -/
def floorLog2 (numerator denominator : Nat) : Int :=
  let estimate : Int := (numerator.log2 : Int) - denominator.log2
  let reached :=
    if 0 ≤ estimate then denominator * Nat.pow 2 estimate.toNat ≤ numerator
    else denominator ≤ numerator * Nat.pow 2 (-estimate).toNat
  if reached then estimate else estimate - 1

/-- The number `significand / 2 ^ scale` with common factors of two removed. -/
def reduce (negative : Bool) (significand : Nat) : Nat → Number
  | 0 => .integer (Numeral.signed negative significand)
  | scale + 1 =>
      if significand % 2 = 0 then reduce negative (significand / 2) scale
      else .fraction (Numeral.signed negative significand) (scale + 1)

/-- The least exponent of two that the format has for the unit in the last place. -/
def minExponent : Int := -1074

/-- The power of two from which on rounding gives an infinity. -/
def overflowExponent : Nat := 1024

/-- The number nearest to `± numerator / denominator`, for a positive denominator. -/
def nearest (negative : Bool) (numerator denominator : Nat) : Number :=
  if numerator = 0 then .integer 0
  else
    let exponent := max (floorLog2 numerator denominator - 52) minExponent
    if 0 ≤ exponent then
      let unit := Nat.pow 2 exponent.toNat
      let magnitude := divRound numerator (denominator * unit) * unit
      if overflowExponent ≤ magnitude.log2 then .infinite negative
      else .integer (Numeral.signed negative magnitude)
    else
      let scale := (-exponent).toNat
      reduce negative (divRound (numerator * Nat.pow 2 scale) denominator) scale

/-- The number nearest to an integer. -/
def ofInt (n : Int) : Number := nearest (n < 0) n.natAbs 1

/-- The number nearest to `numerator / 2 ^ scale`. -/
def ofDyadic (numerator : Int) (scale : Nat) : Number :=
  nearest (numerator < 0) numerator.natAbs (Nat.pow 2 scale)

/-- The sum of two numbers, rounded to the nearest one. An infinity absorbs what is added to it; two
opposite infinities have no sum, and the first of them stands for it. -/
def add : Number → Number → Number
  | .infinite negative, _ => .infinite negative
  | _, .infinite negative => .infinite negative
  | .integer m, .integer n => ofInt (m + n)
  | .integer m, .fraction n k => ofDyadic (m * Nat.pow 2 k + n) k
  | .fraction m j, .integer n => ofDyadic (m + n * Nat.pow 2 j) j
  | .fraction m j, .fraction n k => ofDyadic (m * Nat.pow 2 k + n * Nat.pow 2 j) (j + k)

/-- The number on the other side of zero. -/
def neg : Number → Number
  | .integer n => .integer (-n)
  | .fraction n k => .fraction (-n) k
  | .infinite negative => .infinite (!negative)

instance : Add Number := ⟨add⟩

instance : Neg Number := ⟨neg⟩

instance : Sub Number := ⟨fun x y => x + -y⟩

/-- The integer part of a number: what is left when its fraction is dropped. An infinity has none
and gives zero. -/
def truncate : Number → Int
  | .integer n => n
  | .fraction n k => n.tdiv (Nat.pow 2 k)
  | .infinite _ => 0

/-- The number nearest to what a decimal numeral denotes. The first two cases keep the exact
arithmetic small: a coefficient of `d` digits lies between `10 ^ (d - 1)` and `10 ^ d`. -/
def ofDecimal (decimal : Decimal) : Number :=
  let size : Int := (Numeral.digits decimal.coefficient).length + decimal.exponent
  if decimal.coefficient = 0 ∨ size < -330 then .integer 0
  else if 330 < size then .infinite decimal.negative
  else if 0 ≤ decimal.exponent then
    nearest decimal.negative (decimal.coefficient * Nat.pow 10 decimal.exponent.toNat) 1
  else nearest decimal.negative decimal.coefficient (Nat.pow 10 (-decimal.exponent).toNat)

end Number

end FlowLog
