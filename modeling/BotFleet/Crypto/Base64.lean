/-
Bytes as letters, six bits each.

Three bytes make four letters.  One or two bytes left over make two or three
letters, whose spare bits are zero; a text with other spare bits is no encoding
of anything.
-/

namespace BotFleet
namespace Base64

/-- Sixty-four different letters. -/
structure Alphabet where
  letters : List Char
  size : letters.length = 64
  distinct : letters.Nodup

namespace Alphabet

/-- The alphabet whose letters need no escape in a URL. -/
def url : Alphabet where
  letters := "ABCDEFGHIJKLMNOPQRSTUVWXYZabcdefghijklmnopqrstuvwxyz0123456789-_".toList
  size := by decide +kernel
  distinct := by decide +kernel

/-- The alphabet of password hashes. -/
def password : Alphabet where
  letters := "./ABCDEFGHIJKLMNOPQRSTUVWXYZabcdefghijklmnopqrstuvwxyz0123456789".toList
  size := by decide +kernel
  distinct := by decide +kernel

def letter (a : Alphabet) (n : Nat) : Char := a.letters.getD n 'A'

def value? (a : Alphabet) (c : Char) : Option Nat := a.letters.idxOf? c

end Alphabet

def encode (a : Alphabet) : List UInt8 → List Char
  | [] => []
  | [x] =>
    let n := x.toNat * 16
    [a.letter (n / 64), a.letter (n % 64)]
  | [x, y] =>
    let n := x.toNat * 1024 + y.toNat * 4
    [a.letter (n / 4096), a.letter (n / 64 % 64), a.letter (n % 64)]
  | x :: y :: z :: rest =>
    let n := x.toNat * 65536 + y.toNat * 256 + z.toNat
    a.letter (n / 262144) :: a.letter (n / 4096 % 64) :: a.letter (n / 64 % 64) ::
      a.letter (n % 64) :: encode a rest

/-- The bytes that letters stand for, if they are an encoding. -/
def decode? (a : Alphabet) : List Char → Option (List UInt8)
  | [] => some []
  | [_] => none
  | [p, q] => do
    let n := (← a.value? p) * 64 + (← a.value? q)
    if n % 16 = 0 then some [UInt8.ofNat (n / 16)] else none
  | [p, q, r] => do
    let n := (← a.value? p) * 4096 + (← a.value? q) * 64 + (← a.value? r)
    if n % 4 = 0 then some [UInt8.ofNat (n / 1024), UInt8.ofNat (n / 4 % 256)] else none
  | p :: q :: r :: s :: rest => do
    let n := (← a.value? p) * 262144 + (← a.value? q) * 4096 + (← a.value? r) * 64 +
      (← a.value? s)
    let bytes ← decode? a rest
    return UInt8.ofNat (n / 65536) :: UInt8.ofNat (n / 256 % 256) ::
      UInt8.ofNat (n % 256) :: bytes

end Base64
end BotFleet
