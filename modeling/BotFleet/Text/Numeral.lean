import BotFleet.Ranged

/-
Whole numbers in decimal digits.

Digits are taken from the left and the bound is checked after each, so of two
faults in one numeral the one further left is reported.
-/

namespace BotFleet
namespace Numeral

/-- Why a text is no numeral of the range asked for. -/
inductive Fault where
  | empty
  | notDigit
  | tooLarge
  | tooSmall
deriving DecidableEq, Repr

def Fault.message : Fault → String
  | .empty => "cannot parse integer from empty string"
  | .notDigit => "invalid digit found in string"
  | .tooLarge => "number too large to fit in target type"
  | .tooSmall => "number too small to fit in target type"

/-- Appends the digits of `s` to the number `acc`, as long as the result stays
within `limit`. -/
def digitsWithin (limit : Nat) (excess : Fault) (acc : Nat) : List Char → Except Fault Nat
  | [] => .ok acc
  | c :: rest =>
    if c.isDigit then
      let next := acc * 10 + (c.toNat - '0'.toNat)
      if limit < next then .error excess else digitsWithin limit excess next rest
    else .error .notDigit

theorem digitsWithin_le {limit : Nat} {excess : Fault} {s : List Char} {acc n : Nat}
    (hacc : acc ≤ limit) (h : digitsWithin limit excess acc s = .ok n) : n ≤ limit := by
  induction s generalizing acc with
  | nil => cases h; exact hacc
  | cons c rest ih =>
    simp only [digitsWithin] at h
    split at h
    · split at h
      · cases h
      · exact ih (by omega) h
    · cases h

/-- Reads a numeral of a range.  A sign counts only in front of a digit, and a
minus only where the range goes below zero. -/
def read (lo hi : Int) (s : List Char) : Except Fault Int :=
  match s with
  | [] => .error .empty
  | ['+'] => .error .notDigit
  | ['-'] => .error .notDigit
  | '+' :: digits => (digitsWithin hi.toNat .tooLarge 0 digits).map Int.ofNat
  | '-' :: digits =>
    if lo < 0 then (digitsWithin (-lo).toNat .tooSmall 0 digits).map fun n => -Int.ofNat n
    else .error .notDigit
  | digits => (digitsWithin hi.toNat .tooLarge 0 digits).map Int.ofNat

/-- The numeral as a member of its range, if it is one. -/
def read? (lo hi : Int) (s : List Char) : Option (Ranged lo hi) :=
  match read lo hi s with
  | .ok n => Ranged.ofInt? lo hi n
  | .error _ => none

def natural (n : Nat) : List Char := Nat.toDigits 10 n

/-- A whole number in its shortest form. -/
def whole : Int → List Char
  | .ofNat n => natural n
  | .negSucc n => '-' :: natural (n + 1)

def ofInt (n : Int) : String := String.ofList (whole n)

def ofNat (n : Nat) : String := String.ofList (natural n)

end Numeral
end BotFleet
