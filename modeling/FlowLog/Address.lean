import FlowLog.Numeral
import FlowLog.Text.Search

/-!
# Network addresses

Three shapes of text stand for addresses: a full address of family 4 or 6, an address block (an
address, a slash and a prefix length) and a dotted prefix of one to four numbers.

An address of family 6 is eight groups of one to four hexadecimal digits separated by colons; two
colons side by side may replace one or more groups, and a dotted quad may stand for the last two. A
zone may follow after a percent sign.
-/

namespace FlowLog.Address

/-- The two address families. -/
inductive Family where
  | four
  | six
  deriving DecidableEq, Repr

/-- The number of bits of an address. -/
def Family.bits : Family → Nat
  | .four => 32
  | .six => 128

/-- Whether a text is digits without a superfluous leading zero. -/
def isPlainNumber (text : List Char) : Bool :=
  Numeral.isDigits text && (text.head? != some '0' || text.length == 1)

/-- Whether a text is one part of a dotted quad: a number up to 255 without leading zeros. -/
def isOctet (text : List Char) : Bool :=
  isPlainNumber text && text.length ≤ 3 && Numeral.value text ≤ 255

/-- Whether a text is an address of family 4: four octets with dots between them. -/
def isQuad (text : List Char) : Bool :=
  let parts := text.splitOn '.'
  parts.length == 4 && parts.all isOctet

/-- Whether a character is a hexadecimal digit. -/
def isHexDigit (c : Char) : Bool :=
  c.isDigit || ('a' ≤ c && c ≤ 'f') || ('A' ≤ c && c ≤ 'F')

/-- Whether a text is one group of an address of family 6. -/
def isGroup (text : List Char) : Bool :=
  !text.isEmpty && text.length ≤ 4 && text.all isHexDigit

/-- The number of groups that the last part of an address stands for. -/
def lastWidth? (quadAllowed : Bool) (part : List Char) : Option Nat :=
  if isGroup part then some 1
  else if quadAllowed && isQuad part then some 2
  else none

/-- The number of groups that non-empty parts stand for; only the last may be a dotted quad. -/
def partsWidth? (quadAllowed : Bool) : List (List Char) → Option Nat
  | [] => some 0
  | [last] => lastWidth? quadAllowed last
  | part :: rest => if isGroup part then (partsWidth? quadAllowed rest).map (· + 1) else none

/-- The number of groups written in a text, where an empty text has none. -/
def groupsWidth? (quadAllowed : Bool) (text : List Char) : Option Nat :=
  if text.isEmpty then some 0 else partsWidth? quadAllowed (text.splitOn ':')

/-- Whether a text is an address of family 6 without a zone. -/
def isColonAddress (text : List Char) : Bool :=
  match Text.find? [':', ':'] text with
  | none => groupsWidth? true text == some 8
  | some gap =>
      match groupsWidth? false (text.take gap), groupsWidth? true (text.drop (gap + 2)) with
      | some before, some after => before + after ≤ 7
      | _, _ => false

/-- Whether a character can belong to a zone. -/
def isZoneChar (c : Char) : Bool :=
  c.isDigit || ('a' ≤ c && c ≤ 'z') || ('A' ≤ c && c ≤ 'Z') || c == '-' || c == '.' || c == ':'

/-- Whether a text is nothing or a zone with its percent sign. -/
def isZone : List Char → Bool
  | [] => true
  | '%' :: zone => !zone.isEmpty && zone.all isZoneChar
  | _ => false

/-- Whether a text is an address of family 6. -/
def isSix (text : List Char) : Bool :=
  isColonAddress (text.takeWhile (· != '%')) && isZone (text.dropWhile (· != '%'))

/-- The family of a full address. -/
def family? (text : List Char) : Option Family :=
  if isQuad text then some .four
  else if isSix text then some .six
  else none

/-- Whether a text is the length of a block's prefix: at most three digits without leading zeros. -/
def isPrefixLength (text : List Char) : Bool := isPlainNumber text && text.length ≤ 3

/-- Whether a text is an address block. -/
def isBlock (text : List Char) : Bool :=
  match Text.splitLast? '/' text with
  | none => false
  | some (address, length) =>
      match family? address with
      | none => false
      | some family => isPrefixLength length && Numeral.value length ≤ family.bits

/-- Whether a text is one number of a dotted prefix: up to three digits and at most 255. -/
def isPrefixPart (text : List Char) : Bool :=
  Numeral.isDigits text && text.length ≤ 3 && Numeral.value text ≤ 255

/-- Whether a text is a dotted prefix of one to four numbers. -/
def isDottedPrefix (text : List Char) : Bool :=
  let parts := text.splitOn '.'
  parts.length ≤ 4 && parts.all isPrefixPart

end FlowLog.Address
