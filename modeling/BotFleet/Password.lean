import BotFleet.Crypto.Base64
import BotFleet.Crypto.Blowfish
import BotFleet.Ranged
import BotFleet.Text.Numeral
import BotFleet.Text.Utf8

/-
Passwords and their stored hashes.

The service needs two things of a hashing scheme: to hash a password with some
salt, and to say whether a password belongs to a stored hash.  `Scheme` names
the two and `Scheme.blowfish` is the one in use.  It looks at the first
seventy-two bytes of a password and the zero byte that ends it.
-/

namespace BotFleet
namespace Password

/-- What can go wrong with a password or a stored hash.  The last four are of the
scheme itself: nothing below gives them. -/
inductive Fault where
  | costNotAllowed (cost : Cost)
  /-- What is stored does not have the parts of a hash. -/
  | invalidHash (stored : String)
  | invalidPrefix (name : String)
  | invalidCost (cost : String)
  /-- The salt or the digest is no encoding of bytes. -/
  | invalidLetters (detail : String)
  | invalidSalt (length : Nat)
  | truncated (length : Nat)
  | randomness (detail : String)
  | io (detail : String)
deriving DecidableEq, Repr

def Fault.message : Fault → String
  | .costNotAllowed cost => s!"Cost needs to be between 4 and 31, got {cost.val}"
  | .invalidHash stored => s!"Invalid hash: {stored}"
  | .invalidPrefix name => s!"Invalid Prefix: {name}"
  | .invalidCost cost => s!"Invalid Cost: {cost}"
  | .invalidLetters detail => s!"Base64 error: {detail}"
  | .invalidSalt length => s!"Invalid salt len: expected 16, received {length}"
  | .truncated length => s!"Expected 72 bytes or fewer; found {length} bytes"
  | .randomness detail => s!"Rand error: {detail}"
  | .io detail => s!"IO error: {detail}"

structure Scheme where
  hash : (cost : Cost) → (salt : List UInt8) → (password : String) → Except Fault String
  verify : (password stored : String) → Except Fault Bool

def isCost (cost : Cost) : Bool := 4 ≤ cost.val && cost.val ≤ 31

/-- The part of a password that counts. -/
def effectiveBytes (password : String) : List UInt8 :=
  (Utf8.encode password.toList ++ [0]).take 72

def digest (cost : Cost) (salt : List UInt8) (password : String) : Except Fault (List UInt8) :=
  if isCost cost then .ok (Blowfish.digest cost.val.toNat salt (effectiveBytes password))
  else .error (.costNotAllowed cost)

/-- A number below one hundred in two digits. -/
def twoDigits (n : Nat) : List Char := (if n < 10 then ['0'] else []) ++ Numeral.natural n

/-- The text that stores a digest, its cost and its salt. -/
def storedText (cost : Cost) (salt digest : List UInt8) : String :=
  String.ofList <|
    ['$', '2', 'b', '$'] ++ twoDigits cost.val.toNat ++ '$' ::
      (Base64.encode .password salt ++ Base64.encode .password digest)

structure Stored where
  cost : Cost
  salt : List Char
  digest : List Char

def schemeNames : List (List Char) := [['2', 'a'], ['2', 'b'], ['2', 'x'], ['2', 'y']]

/-- The parts of a text between dollar signs, without the empty ones. -/
def parts (s : List Char) : List (List Char) := (s.splitOn '$').filter fun part => !part.isEmpty

def Stored.ofText (text : String) : Except Fault Stored :=
  match parts text.toList with
  | [name, cost, rest] =>
    if schemeNames.contains name then
      match Numeral.read? 0 4294967295 cost with
      | some cost =>
        let salt := rest.take 22
        let digest := rest.drop 22
        if (Utf8.encode salt).length = 22 && (Utf8.encode digest).length = 31 then
          .ok ⟨cost, salt, digest⟩
        else .error (.invalidHash text)
      | none => .error (.invalidCost (String.ofList cost))
    else .error (.invalidPrefix (String.ofList name))
  | _ => .error (.invalidHash text)

/-- What is wrong with letters that encode no bytes: the first byte that is no
letter, or else the spare bits of the last one.  An equality sign that ends the
letters where padding could stand is told as padding. -/
def letterFault (letters : List Char) : Fault :=
  let bytes := Utf8.encode letters
  let isLetter (b : UInt8) : Bool :=
    Base64.Alphabet.password.letters.any fun c => c.toNat == b.toNat
  let symbol (offset : Nat) : UInt8 := bytes.getD offset 0
  match bytes.findIdx? fun b => !isLetter b with
  | some offset =>
    if offset % 4 = 2 && bytes.drop offset == [61] then .invalidLetters "Invalid padding"
    else
      let found := symbol offset
      .invalidLetters s!"Invalid symbol {found}, offset {offset}."
  | none =>
    let offset := bytes.length - 1
    let found := symbol offset
    .invalidLetters s!"Invalid last symbol {found}, offset {offset}."

def hash (cost : Cost) (salt : List UInt8) (password : String) : Except Fault String :=
  (digest cost salt password).map fun d => storedText cost salt d

def verify (password stored : String) : Except Fault Bool :=
  match Stored.ofText stored with
  | .error f => .error f
  | .ok s =>
    match Base64.decode? .password s.salt with
    | none => .error (letterFault s.salt)
    | some salt =>
      match digest s.cost salt password with
      | .error f => .error f
      | .ok made =>
        match Base64.decode? .password s.digest with
        | none => .error (letterFault s.digest)
        | some found => .ok (made == found)

def Scheme.blowfish : Scheme where
  hash := Password.hash
  verify := Password.verify

/-! ## Random passwords -/

def letters : List Char :=
  "ABCDEFGHIJKLMNOPQRSTUVWXYZabcdefghijklmnopqrstuvwxyz0123456789".toList

/-- The password that random numbers pick, a letter or digit each. -/
def ofDraws (draws : List Nat) : String :=
  String.ofList (draws.map fun n => letters.getD (n % letters.length) 'A')

end Password
end BotFleet
