import FlowLog.Numeral

/-!
# Ordered records

A record maps names to values and remembers an order of its names: names that are list positions,
such as `0` and `17`, come first in ascending order, and all others follow in the order in which
they were first set. Setting a name again replaces its value and keeps its place.
-/

namespace FlowLog

/-- A record, as the list of its names and values in order. -/
abbrev Record (α : Type) := List (String × α)

namespace Record

variable {α : Type}

/-- The largest list position. -/
def maxIndex : Nat := 4294967294

/-- The list position that a name is, if it is one: digits without a leading zero. -/
def index? (name : String) : Option Nat :=
  let digits := name.toList
  if Numeral.isDigits digits && (digits.head? != some '0' || digits.length == 1) then
    let position := Numeral.value digits
    if position ≤ maxIndex then some position else none
  else none

/-- Whether a new name `name` is placed in front of a name `other`. -/
def precedes (name other : String) : Bool :=
  match index? name, index? other with
  | some position, some otherPosition => position < otherPosition
  | some _, none => true
  | none, _ => false

/-- Places a name that the record does not have. -/
def place (name : String) (value : α) : Record α → Record α
  | [] => [(name, value)]
  | (other, held) :: rest =>
      if precedes name other then (name, value) :: (other, held) :: rest
      else (other, held) :: place name value rest

/-- Replaces the value of a name that the record has. -/
def replace (name : String) (value : α) (record : Record α) : Record α :=
  record.map fun (other, held) => if other = name then (other, value) else (other, held)

/-- Whether a record has a name. -/
def has (name : String) (record : Record α) : Bool := record.any (·.1 == name)

/-- Sets the value of a name. -/
def set (record : Record α) (name : String) (value : α) : Record α :=
  if record.has name then record.replace name value else record.place name value

/-- The value of a name. -/
def get? (record : Record α) (name : String) : Option α := record.lookup name

/-- The names of a record in order. -/
def names (record : Record α) : List String := record.map (·.1)

/-- The record without some names. -/
def without (removed : List String) (record : Record α) : Record α :=
  record.filter fun (name, _) => !removed.contains name

/-- The record that results from setting names one after another. -/
def ofList (members : List (String × α)) : Record α :=
  members.foldl (fun record (name, value) => set record name value) []

/-- A record updated with every name of another one. -/
def update (record changes : Record α) : Record α :=
  changes.foldl (fun updated (name, value) => set updated name value) record

end Record

end FlowLog
