import FlowLog.Number

/-!
# Shortest decimal text

The text of a number has the fewest significant digits that read back as the same number, and of
those the nearest ones. Magnitudes from `10 ^ -6` up to `10 ^ 21` are written with a point where
needed, all others with an exponent.
-/

namespace FlowLog.Number

/-- The magnitude of a finite number as a quotient. -/
def ratio : Number → Nat × Nat
  | .integer n => (n.natAbs, 1)
  | .fraction n scale => (n.natAbs, Nat.pow 2 scale)
  | .infinite _ => (0, 1)

/-- The exponent `e` with `10 ^ (e - 1) ≤ numerator / denominator < 10 ^ e`, for positive
arguments. -/
def pointPosition (numerator denominator : Nat) : Int :=
  if denominator ≤ numerator then (Numeral.digits (numerator / denominator)).length
  else
    let inverse := (denominator + numerator - 1) / numerator
    1 - ((Numeral.digits (inverse - 1)).length : Int)

/-- The quotient multiplied by a power of ten, again as a quotient. -/
def scaleTen (numerator denominator : Nat) (power : Int) : Nat × Nat :=
  if 0 ≤ power then (numerator * Nat.pow 10 power.toNat, denominator)
  else (numerator, denominator * Nat.pow 10 (-power).toNat)

/-- Of the two neighbours of a magnitude among the multiples of `10 ^ -places`, the nearer one that
reads back as the number. -/
def roundTrip? (magnitude : Number) (places : Int) : Option Nat :=
  let (numerator, denominator) := magnitude.ratio
  let (scaled, unit) := scaleTen numerator denominator places
  let below := scaled / unit
  let twice := 2 * (scaled % unit)
  let lowerFirst := twice < unit || (twice == unit && below % 2 == 0)
  let candidates := if lowerFirst then [below, below + 1] else [below + 1, below]
  candidates.find? fun coefficient =>
    coefficient != 0 && ofDecimal { negative := false, coefficient, exponent := -places } == magnitude

/-- The coefficient of `extra + 1` digits that reads back as a number, with its number of decimal
places; `point` is the position of the number's point. -/
def withDigits? (magnitude : Number) (point : Int) (extra : Nat) : Option (Nat × Int) :=
  let places : Int := extra + 1 - point
  (roundTrip? magnitude places).map fun coefficient => (coefficient, places)

/-- The shortest coefficient that reads back as a positive number, with its number of decimal
places; seventeen digits always do. -/
def shortest (magnitude : Number) : Nat × Int :=
  let (numerator, denominator) := magnitude.ratio
  let found := (List.range 17).findSome? (withDigits? magnitude (pointPosition numerator denominator))
  found.getD (numerator / denominator, 0)

/-- The coefficient without trailing zeros, and with fewer decimal places accordingly. -/
def stripZeros (fuel coefficient : Nat) (places : Int) : Nat × Int :=
  match fuel with
  | 0 => (coefficient, places)
  | fuel + 1 =>
      if coefficient % 10 = 0 then stripZeros fuel (coefficient / 10) (places - 1)
      else (coefficient, places)

/-- Where positional notation ends: the position of the point is above the first and up to the
second. -/
def positional : Int × Int := (-6, 21)

/-- Writes significant digits with the point after the first `point` of them. -/
def layout (digits : List Char) (point : Int) : List Char :=
  let count : Int := digits.length
  if positional.1 < point ∧ point ≤ positional.2 then
    if count ≤ point then digits ++ List.replicate (point - count).toNat '0'
    else if 0 < point then digits.take point.toNat ++ '.' :: digits.drop point.toNat
    else '0' :: '.' :: List.replicate (-point).toNat '0' ++ digits
  else
    let exponent := point - 1
    let mark := 'e' :: (if exponent < 0 then '-' else '+') :: Numeral.digits exponent.natAbs
    match digits with
    | first :: second :: rest => first :: '.' :: second :: rest ++ mark
    | _ => digits ++ mark

/-- The text of a positive finite number. -/
def magnitudeText (magnitude : Number) : List Char :=
  let (coefficient, places) := shortest magnitude
  let (significant, kept) := stripZeros 20 coefficient places
  let digits := Numeral.digits significant
  layout digits (digits.length - kept)

/-- The text of a number. -/
def text : Number → List Char
  | .infinite negative => if negative then "-Infinity".toList else "Infinity".toList
  | .integer n =>
      if n = 0 then ['0']
      else if n < 0 then '-' :: magnitudeText (.integer (-n))
      else magnitudeText (.integer n)
  | .fraction n scale =>
      if n < 0 then '-' :: magnitudeText (.fraction (-n) scale) else magnitudeText (.fraction n scale)

instance : ToString Number := ⟨fun x => String.ofList x.text⟩

end FlowLog.Number
