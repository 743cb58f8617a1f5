/-
Text as bytes.

`decodeStep` takes one character off the front of a byte sequence, or the
longest run of bytes that begins a character without finishing it.  Strict
decoding refuses such a run and lenient decoding puts the replacement character
in its place.
-/

namespace BotFleet
namespace Utf8

def encode (s : List Char) : List UInt8 := s.flatMap String.utf8EncodeChar

def isContinuation (b : UInt8) : Bool := b &&& 0xC0 == 0x80

/-- The values of the second byte that may follow `first` in a character of
three or four bytes.  They exclude overlong forms, surrogates and everything
above the last code point. -/
def secondRange (first : UInt8) : UInt8 × UInt8 :=
  if first == 0xE0 then (0xA0, 0xBF)
  else if first == 0xED then (0x80, 0x9F)
  else if first == 0xF0 then (0x90, 0xBF)
  else if first == 0xF4 then (0x80, 0x8F)
  else (0x80, 0xBF)

def low (b : UInt8) : Nat := b.toNat % 64

/-- The first character of a byte sequence, or `none` where the bytes taken are
no character; and the bytes after it. -/
def decodeStep (b : UInt8) (rest : List UInt8) : Option Char × List UInt8 :=
  if b < 0x80 then (some (Char.ofNat b.toNat), rest)
  else if b < 0xC2 then (none, rest)
  else if b < 0xE0 then
    match rest with
    | c :: rest' =>
      if isContinuation c then (some (Char.ofNat (b.toNat % 32 * 64 + low c)), rest')
      else (none, rest)
    | [] => (none, rest)
  else if b < 0xF5 then
    match rest with
    | c :: rest' =>
      if (secondRange b).1 ≤ c && c ≤ (secondRange b).2 then
        match rest' with
        | d :: rest'' =>
          if isContinuation d then
            if b < 0xF0 then
              (some (Char.ofNat (b.toNat % 16 * 4096 + low c * 64 + low d)), rest'')
            else
              match rest'' with
              | e :: rest''' =>
                if isContinuation e then
                  (some (Char.ofNat
                    (b.toNat % 8 * 262144 + low c * 4096 + low d * 64 + low e)), rest''')
                else (none, rest'')
              | [] => (none, rest'')
          else (none, rest')
        | [] => (none, rest')
      else (none, rest)
    | [] => (none, rest)
  else (none, rest)

theorem length_decodeStep (b : UInt8) (rest : List UInt8) :
    (decodeStep b rest).2.length ≤ rest.length := by
  unfold decodeStep
  repeat' split
  all_goals simp only [List.length_cons]; omega

/-- The text that the bytes spell, with `none` for each run that is no
character. -/
def units : List UInt8 → List (Option Char)
  | [] => []
  | b :: rest =>
    (decodeStep b rest).1 :: units (decodeStep b rest).2
termination_by s => s.length
decreasing_by
  have := length_decodeStep b rest
  simp only [List.length_cons]
  omega

def decode? (bytes : List UInt8) : Option (List Char) := (units bytes).mapM id

/-- The text that the bytes spell, with the replacement character for each run
that is no character. -/
def decodeLossy (bytes : List UInt8) : List Char :=
  (units bytes).map fun unit => unit.getD '\uFFFD'

def size (s : String) : Nat := s.utf8ByteSize

end Utf8
end BotFleet
