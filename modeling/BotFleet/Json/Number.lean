import BotFleet.Double
import BotFleet.Text.Numeral

/-
Numbers of JSON text.

A number is kept in the digits it is written with, so whether it is whole and whether it is
within range can be told afterwards.  A double is written with as few digits as tell it from
its neighbours.  Where the point lies decides the form: it stands among the digits as long as
they are not many, and an exponent is written where they would be.
-/

namespace BotFleet
namespace Json

/-- The parts of a number.  `whole` and `places` are digits, and `exponent` is
absent where none is written. -/
structure Number where
  negative : Bool
  whole : List Char
  places : List Char
  exponent : Option Int
deriving Repr

/-- Puts digits after those of `n` for as long as 64 bits hold the result, and
leaves the digits after these. -/
def appendDigits (n : Nat) : List Char → Nat × List Char
  | [] => (n, [])
  | c :: cs =>
    let next := n * 10 + (c.toNat - '0'.toNat)
    if next < 18446744073709551616 then appendDigits next cs else (n, c :: cs)

namespace Number

/-- The digits that count, as one whole number, and the power of ten that it is
multiplied with.  Digits that 64 bits do not hold are dropped. -/
def significand (n : Number) : Nat × Int :=
  let (front, dropped) := appendDigits 0 n.whole
  let (all, cut) := appendDigits front n.places
  (all, dropped.length + cut.length - n.places.length + n.exponent.getD 0)

/-- The number as a double, if it is within range. -/
def value? (n : Number) : Option Double :=
  Double.ofParts? n.negative n.significand.1 n.significand.2

def isInRange (n : Number) : Bool := n.value?.isSome

/-- The number as a whole number.  A number with a point or an exponent is not
one, nor is zero with a sign, nor one that no 64 bits hold. -/
def toInt? (n : Number) : Option Int :=
  if n.places.isEmpty && n.exponent.isNone then
    let magnitude := Nat.ofDigitChars 10 n.whole 0
    if n.negative then
      if 0 < magnitude && magnitude ≤ 9223372036854775808 then some (-(magnitude : Int)) else none
    else if magnitude < 18446744073709551616 then some magnitude else none
  else none

/-- Whether the digits of the exponent, less the last one, are more than 31 bits
hold.  The exponent of such a number is not read to its end. -/
def isCutOff (n : Number) : Bool := 2147483647 < (n.exponent.getD 0).natAbs / 10

/-! ## Writing -/

def signText (negative : Bool) : List Char := if negative then ['-'] else []

def placesText (places : List Char) : List Char := if places.isEmpty then [] else '.' :: places

def exponentText : Option Int → List Char
  | none => []
  | some e => 'e' :: Numeral.whole e

def text (n : Number) : List Char :=
  signText n.negative ++ n.whole ++ placesText n.places ++ exponentText n.exponent

def zeros (n : Nat) : List Char := List.replicate n '0'

/-- The number that a decimal is written as.  `point` says after how many of its digits the point
belongs, before the first one if it is negative. -/
def ofDecimal (negative : Bool) (d : Double.Decimal) : Number :=
  let digits := Numeral.natural d.digits
  let point := digits.length + d.exponent
  if 0 ≤ d.exponent && point ≤ 16 then
    ⟨negative, digits ++ zeros d.exponent.toNat, ['0'], none⟩
  else if 0 < point && point ≤ 16 then
    ⟨negative, digits.take point.toNat, digits.drop point.toNat, none⟩
  else if -5 < point && point ≤ 0 then ⟨negative, ['0'], zeros (-point).toNat ++ digits, none⟩
  else ⟨negative, digits.take 1, digits.drop 1, some (point - 1)⟩

def ofDouble (x : Double) : Number := ofDecimal x.negative (Double.Decimal.shortest x.units)

end Number
end Json
end BotFleet
