import BotFleet.Text.Blank
import BotFleet.Text.Numeral

/-
Points in time and their text.

An instant is written in universal time as a date, the letter T, a time of day
and the letter Z.  Reading is more generous: numbers may lack leading zeros,
blanks may surround them, and the time may be given with its distance from
universal time.
-/

namespace BotFleet

/-- A point in time, in seconds of universal time since the first of January
1970 and nanoseconds after that.  A leap second repeats the second before it,
with a nanosecond count of a thousand million or more. -/
structure Instant where
  seconds : Int
  nanos : Nat
deriving DecidableEq, Repr

namespace Instant

/-! ## The calendar -/

def isLeapYear (year : Int) : Bool := year % 4 == 0 && (year % 100 != 0 || year % 400 == 0)

def daysInMonth (year : Int) (month : Nat) : Nat :=
  match month with
  | 2 => if isLeapYear year then 29 else 28
  | 4 | 6 | 9 | 11 => 30
  | _ => 31

/-- The number of days from the first of January 1970 to a date.  Years are
counted from March, so that the leap day comes last. -/
def dayNumber (year : Int) (month day : Nat) : Int :=
  let y := if month ≤ 2 then year - 1 else year
  let era := y / 400
  let yearOfEra := y % 400
  let dayOfYear : Int := (153 * ((month + 9) % 12) + 2) / 5 + day - 1
  era * 146097 + (yearOfEra * 365 + yearOfEra / 4 - yearOfEra / 100 + dayOfYear) - 719468

/-- The date that is `n` days after the first of January 1970. -/
def dateOfDay (n : Int) : Int × Nat × Nat :=
  let z := n + 719468
  let era := z / 146097
  let dayOfEra := z % 146097
  let yearOfEra := (dayOfEra - dayOfEra / 1460 + dayOfEra / 36524 - dayOfEra / 146096) / 365
  let dayOfYear := dayOfEra - (365 * yearOfEra + yearOfEra / 4 - yearOfEra / 100)
  let shifted := (5 * dayOfYear + 2) / 153
  let day := dayOfYear - (153 * shifted + 2) / 5 + 1
  let month := if shifted < 10 then shifted + 3 else shifted - 9
  let year := yearOfEra + era * 400
  (if month ≤ 2 then year + 1 else year, month.toNat, day.toNat)

/-- The years that a date may have. -/
def isYear (year : Int) : Bool := -262143 ≤ year && year ≤ 262142

/-! ## Writing -/

def padded (width n : Nat) : List Char :=
  let digits := Numeral.natural n
  List.replicate (width - digits.length) '0' ++ digits

def yearText (year : Int) : List Char :=
  if 0 ≤ year && year ≤ 9999 then padded 4 year.toNat
  else (if year < 0 then '-' else '+') :: padded 4 year.natAbs

/-- The fraction of a second, in thousandths, millionths or finer as needed. -/
def fractionText (nanos : Nat) : List Char :=
  if nanos = 0 then []
  else if nanos % 1000000 = 0 then '.' :: padded 3 (nanos / 1000000)
  else if nanos % 1000 = 0 then '.' :: padded 6 (nanos / 1000)
  else '.' :: padded 9 nanos

def text (t : Instant) : String :=
  let (year, month, day) := dateOfDay (t.seconds / 86400)
  let second := (t.seconds % 86400).toNat
  let leap := t.nanos / 1000000000
  String.ofList <|
    yearText year ++ '-' :: padded 2 month ++ '-' :: padded 2 day ++ 'T' ::
      padded 2 (second / 3600) ++ ':' :: padded 2 (second / 60 % 60) ++ ':' ::
      padded 2 (second % 60 + leap) ++ fractionText (t.nanos % 1000000000) ++ ['Z']

/-! ## Reading -/

/-- At most `width` digits, of which there must be one, after blanks. -/
def digits? (width : Nat) (s : List Char) : Option (Nat × List Char) :=
  let s := Text.trimLeft s
  let ds := (s.take width).takeWhile Char.isDigit
  if ds.isEmpty then none else some (Nat.ofDigitChars 10 ds 0, s.drop ds.length)

def mark? (c : Char) (s : List Char) : Option (List Char) :=
  match Text.trimLeft s with
  | d :: rest => if c == d then some rest else none
  | [] => none

/-- A year.  One with a sign may have any number of digits. -/
def year? (s : List Char) : Option (Int × List Char) :=
  let signed (sign : Int) (rest : List Char) : Option (Int × List Char) :=
    match rest.takeWhile Char.isDigit with
    | [] => none
    | ds => some (sign * Nat.ofDigitChars 10 ds 0, rest.drop ds.length)
  match Text.trimLeft s with
  | '-' :: rest => signed (-1) rest
  | '+' :: rest => signed 1 rest
  | rest => (digits? 4 rest).map fun (n, rest) => (n, rest)

/-- The fraction of a second in nanoseconds.  Digits beyond the ninth are
dropped. -/
def fraction? : List Char → Option (Nat × List Char)
  | '.' :: s =>
    let ds := s.takeWhile Char.isDigit
    let kept := ds.take 9
    if ds.isEmpty then none
    else some (Nat.ofDigitChars 10 kept 0 * Nat.pow 10 (9 - kept.length), s.drop ds.length)
  | s => some (0, s)

def isColonOrBlank (c : Char) : Bool := c == ':' || Text.isBlank c

/-- The distance from universal time in seconds. -/
def offset? (s : List Char) : Option (Int × List Char) :=
  let after (sign : Int) : List Char → Option (Int × List Char)
    | a :: b :: rest =>
      match rest.dropWhile isColonOrBlank with
      | c :: d :: rest =>
        if [a, b, c, d].all Char.isDigit && c < '6' then
          let hours := Nat.ofDigitChars 10 [a, b] 0
          let minutes := Nat.ofDigitChars 10 [c, d] 0
          some (sign * (hours * 3600 + minutes * 60), rest)
        else none
      | _ => none
    | _ => none
  match s with
  | 'Z' :: rest => some (0, rest)
  | 'z' :: rest => some (0, rest)
  | '+' :: rest => after 1 rest
  | '-' :: rest => after (-1) rest
  | '\u2212' :: rest => after (-1) rest
  | _ => none

/-- The letters UTC stand for universal time too, in either letter case. -/
def zone? (s : List Char) : Option (Int × List Char) :=
  let s := Text.trimLeft s
  if (s.take 3).map Char.toUpper == ['U', 'T', 'C'] then some (0, s.drop 3) else offset? s

def dateMark? : List Char → Option (List Char)
  | 'T' :: rest => some rest
  | 't' :: rest => some rest
  | ' ' :: rest => some rest
  | _ => none

def read? (s : List Char) : Option Instant := do
  let (year, s) ← year? s
  let (month, s) ← digits? 2 (← mark? '-' s)
  let (day, s) ← digits? 2 (← mark? '-' s)
  let (hour, s) ← digits? 2 (← dateMark? s)
  let (minute, s) ← digits? 2 (← mark? ':' s)
  let (second, s) ← digits? 2 (← mark? ':' s)
  let (fraction, s) ← fraction? s
  let (distance, s) ← zone? s
  if !(Text.trimLeft s).isEmpty then none
  else if !(isYear year && 1 ≤ month && month ≤ 12 && 1 ≤ day && day ≤ daysInMonth year month) then
    none
  else if !(hour ≤ 23 && minute ≤ 59 && second ≤ 60 && distance.natAbs < 86400) then none
  else
    let clock : Int := hour * 3600 + minute * 60 + min second 59
    let seconds := dayNumber year month day * 86400 + clock - distance
    if isYear (dateOfDay (seconds / 86400)).1 then
      some ⟨seconds, fraction + if second = 60 then 1000000000 else 0⟩
    else none

end Instant
end BotFleet
