import BotFleet.Text.Digit

/-
Socket addresses.

An address is four octets and a port, or eight groups of sixteen bits in
brackets and a port.  A run of zero groups may be left out once, and the last
two groups may be written as four octets.
-/

namespace BotFleet
namespace Address

/-- Digits of a base at the front of a text that spell a number of at most
`limit`, and what follows them.  `width` bounds how many digits there may be;
no bound is set where it is `none`. -/
def number? (base : Nat) (width : Option Nat) (limit : Nat) (s : List Char) :
    Option (Nat × List Char) :=
  let ds := s.takeWhile (Digit.isOf base)
  let n := Digit.number base ds
  if ds.isEmpty || limit < n || width.any (· < ds.length) then none else some (n, s.drop ds.length)

/-- An octet has at most three digits and no spare zero in front. -/
def octet? (s : List Char) : Option (List Char) :=
  match number? 10 (some 3) 255 s with
  | none => none
  | some (_, rest) =>
    match s with
    | '0' :: c :: _ => if c.isDigit then none else some rest
    | _ => some rest

/-- What follows a character, if it comes first. -/
def mark? (c : Char) : List Char → Option (List Char)
  | d :: s => if c == d then some s else none
  | [] => none

def quad? (s : List Char) : Option (List Char) := do
  let s ← octet? s
  let s ← octet? (← mark? '.' s)
  let s ← octet? (← mark? '.' s)
  octet? (← mark? '.' s)

def group? (s : List Char) : Option (List Char) :=
  (number? 16 (some 4) 0xFFFF s).map Prod.snd

/-- Groups at the front of a text, `room` of them at most: how many there are,
whether the last two came as octets, and what follows them. -/
def groups (first : Bool) : Nat → List Char → Nat × Bool × List Char
  | 0, s => (0, false, s)
  | room + 1, s =>
    match if first then some s else mark? ':' s with
    | none => (0, false, s)
    | some t =>
      match if 1 ≤ room then quad? t else none with
      | some rest => (2, true, rest)
      | none =>
        match group? t with
        | none => (0, false, s)
        | some rest =>
          let (n, quad, rest) := groups false room rest
          (n + 1, quad, rest)

/-- Eight groups, or fewer with a double colon that stands for the others. -/
def groupsAddress? (s : List Char) : Option (List Char) :=
  let (head, quad, rest) := groups true 8 s
  if head = 8 then some rest
  else if quad then none
  else
    match rest with
    | ':' :: ':' :: rest =>
      let (_, _, rest) := groups true (7 - head) rest
      some rest
    | _ => none

def port? (s : List Char) : Option (List Char) := do
  let s ← mark? ':' s
  (number? 10 none 65535 s).map Prod.snd

def scope? : List Char → Option (List Char)
  | '%' :: s => (number? 10 none 4294967295 s).map Prod.snd
  | s => some s

def bracketed? (s : List Char) : Option (List Char) := do
  let s ← groupsAddress? (← mark? '[' s)
  let s ← mark? ']' (← scope? s)
  port? s

def isSocketAddress (s : String) : Bool :=
  let s := s.toList
  ((quad? s).bind port? == some []) || (bracketed? s == some [])

end Address
end BotFleet
