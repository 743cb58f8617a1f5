import BotFleet.Double
import BotFleet.Instant
import BotFleet.Text.Digit
import BotFleet.Toml.Node

/-
Numbers, dates and truth values of TOML.

A literal is a run of letters, digits and a few marks, and it is one of these
only as a whole.  Only a date may be followed, after a single space, by a second
run that holds the time of day.
-/

namespace BotFleet
namespace Toml

def isLiteralCharacter (c : Char) : Bool :=
  c.isAlphanum || c == '_' || c == '+' || c == '-' || c == '.' || c == ':'

/-- The digits of a numeral without its underscores, each of which has to stand
between two digits. -/
def plainDigits? (isDigit : Char → Bool) : List Char → Option (List Char)
  | [] => none
  | [c] => if isDigit c then some [c] else none
  | c :: '_' :: rest => if isDigit c then (plainDigits? isDigit rest).map (c :: ·) else none
  | c :: rest => if isDigit c then (plainDigits? isDigit rest).map (c :: ·) else none

/-- The decimal digits of a whole number, which does not begin with a spare
zero. -/
def wholeDigits? (s : List Char) : Option (List Char) :=
  match plainDigits? Char.isDigit s with
  | some ('0' :: _ :: _) => none
  | other => other

/-- The sign of a number and the rest of it. -/
def splitSign : List Char → Bool × List Char
  | '-' :: s => (true, s)
  | '+' :: s => (false, s)
  | s => (false, s)

def integer? (s : List Char) : Option Int :=
  let natural (base : Nat) (ds : List Char) : Option Int :=
    (plainDigits? (Digit.isOf base) ds).map fun ds => (Digit.number base ds : Int)
  let value := match s with
    | '0' :: 'x' :: ds => natural 16 ds
    | '0' :: 'o' :: ds => natural 8 ds
    | '0' :: 'b' :: ds => natural 2 ds
    | s =>
      let (negative, s) := splitSign s
      (wholeDigits? s).map fun ds =>
        if negative then -(Digit.number 10 ds : Int) else Digit.number 10 ds
  value.filter fun n => -9223372036854775808 ≤ n && n ≤ 9223372036854775807

/-- The exponent of a number, after the letter. -/
def exponent? (s : List Char) : Option Int :=
  let (negative, s) := splitSign s
  (plainDigits? Char.isDigit s).map fun ds =>
    if negative then -(Digit.number 10 ds : Int) else Digit.number 10 ds

/-- Whether a literal is a floating-point number.  One that is too large is
refused, one that is too small or too far below zero is not. -/
def isFloat (s : List Char) : Bool :=
  let (negative, s) := splitSign s
  if s == ['i', 'n', 'f'] || s == ['n', 'a', 'n'] then true
  else
    let mantissa := s.takeWhile fun c => c != 'e' && c != 'E'
    let power := s.dropWhile fun c => c != 'e' && c != 'E'
    let whole := mantissa.takeWhile (· != '.')
    let places := mantissa.dropWhile (· != '.')
    let exponent := match power with
      | [] => some 0
      | _ :: e => exponent? e
    let fraction := match places with
      | [] => some []
      | _ :: ds => plainDigits? Char.isDigit ds
    match wholeDigits? whole, fraction, exponent with
    | some whole, some fraction, some e =>
      !(power.isEmpty && places.isEmpty) &&
        (negative || Double.holds (whole ++ fraction) (e - fraction.length))
    | _, _, _ => false

/-! ## Dates and times -/

def pair? (a b : Char) : Option Nat :=
  if a.isDigit && b.isDigit then some (Digit.number 10 [a, b]) else none

def isDate (s : List Char) : Bool :=
  match s with
  | [y1, y2, y3, y4, '-', m1, m2, '-', d1, d2] =>
    match pair? y1 y2, pair? y3 y4, pair? m1 m2, pair? d1 d2 with
    | some century, some year, some month, some day =>
      1 ≤ month && month ≤ 12 && 1 ≤ day &&
        day ≤ Instant.daysInMonth (century * 100 + year) month
    | _, _, _, _ => false
  | _ => false

/-- Whether what follows the seconds is nothing, or a point and digits. -/
def isFraction : List Char → Bool
  | [] => true
  | '.' :: ds => !ds.isEmpty && ds.all Char.isDigit
  | _ => false

def isTime (s : List Char) : Bool :=
  match s with
  | h1 :: h2 :: ':' :: m1 :: m2 :: ':' :: s1 :: s2 :: fraction =>
    match pair? h1 h2, pair? m1 m2, pair? s1 s2 with
    | some hour, some minute, some second =>
      hour ≤ 23 && minute ≤ 59 && second ≤ 60 && isFraction fraction
    | _, _, _ => false
  | _ => false

def isOffset (s : List Char) : Bool :=
  match s with
  | [sign, h1, h2, ':', m1, m2] =>
    match pair? h1 h2, pair? m1 m2 with
    | some hour, some minute => (sign == '+' || sign == '-') && hour ≤ 23 && minute ≤ 59
    | _, _ => false
  | _ => false

def isZonedTime (s : List Char) : Bool :=
  let time := s.takeWhile fun c => c.isDigit || c == ':' || c == '.'
  let zone := s.drop time.length
  isTime time && (zone.isEmpty || zone == ['Z'] || zone == ['z'] || isOffset zone)

/-- The parts of a literal before and after the letter T, if its date ends
there. -/
def splitDate (s : List Char) : List Char × List Char := (s.take 10, s.drop 10)

def isMoment (s : List Char) : Bool :=
  let (date, time) := splitDate s
  isTime s || isDate s || isDate date &&
    match time with
    | 'T' :: time => isZonedTime time
    | 't' :: time => isZonedTime time
    | _ => false

/-- A literal that stands for a value, and what follows it. -/
def literal? (s : List Char) : Option (Node × List Char) :=
  let run := s.takeWhile isLiteralCharacter
  let rest := s.dropWhile isLiteralCharacter
  let spaced := match rest with
    | ' ' :: c :: more => if isDate run && c.isDigit then some (c :: more) else none
    | _ => none
  match spaced with
  | some more =>
    let time := more.takeWhile isLiteralCharacter
    if isZonedTime time then
      some (.moment (String.ofList (run ++ ' ' :: time)), more.dropWhile isLiteralCharacter)
    else none
  | none =>
    if run == ['t', 'r', 'u', 'e'] then some (.boolean true, rest)
    else if run == ['f', 'a', 'l', 's', 'e'] then some (.boolean false, rest)
    else if isMoment run then some (.moment (String.ofList run), rest)
    else if isFloat run then some (.float (String.ofList run), rest)
    else (integer? run).map fun n => (.integer n, rest)

end Toml
end BotFleet
