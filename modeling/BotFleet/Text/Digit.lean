/-
Digits of the bases up to sixteen.

The letters after nine may be of either case.
-/

namespace BotFleet
namespace Digit

def hexValue? (c : Char) : Option Nat :=
  if c.isDigit then some (c.toNat - 48)
  else if 'a' ≤ c && c ≤ 'f' then some (c.toNat - 87)
  else if 'A' ≤ c && c ≤ 'F' then some (c.toNat - 55)
  else none

def value? (base : Nat) (c : Char) : Option Nat := (hexValue? c).filter (· < base)

def isOf (base : Nat) (c : Char) : Bool := (value? base c).isSome

def number (base : Nat) (digits : List Char) : Nat :=
  digits.foldl (fun n c => n * base + (value? base c).getD 0) 0

end Digit
end BotFleet
