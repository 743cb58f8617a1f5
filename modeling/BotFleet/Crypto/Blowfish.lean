/-
The Blowfish cipher with its costly key schedule.

The boxes of the cipher start out as the binary digits of π after the point.
They are computed here from Machin's formula in whole-number arithmetic, with
spare digits that absorb the rounding.
-/

namespace BotFleet
namespace Blowfish

/-! ## The digits of π -/

/-- The sum of `n` terms of the series of the arc tangent of `1 / x`, in units of
`1 / scale`: `power` is the current power of `1 / x` in those units and `k` the
odd number that divides it.  The signs alternate. -/
def arctanSeries (square : Nat) : Nat → Nat → Nat → Int
  | 0, _, _ => 0
  | n + 1, power, k => (power / k : Nat) - arctanSeries square n (power / square) (k + 2)

/-- The arc tangent of `1 / x` in units of `2 ^ -bits`.  Each term shrinks by at
least the square of `x`, so as many terms as bits are more than enough. -/
def arctanInverse (bits x terms : Nat) : Int := arctanSeries (x * x) terms (Nat.pow 2 bits / x) 1

def boxWords : Nat := 18 + 4 * 256

/-- The fraction of π in units of `2 ^ -(32 * boxWords)`. -/
def piFraction : Nat :=
  let spare := 64
  let bits := 32 * boxWords + spare
  let pi := 4 * (4 * arctanInverse bits 5 (bits / 4) - arctanInverse bits 239 (bits / 15))
  (pi.toNat % Nat.pow 2 bits) / Nat.pow 2 spare

def piWords : Array UInt32 :=
  Array.ofFn (n := boxWords) fun i =>
    UInt32.ofNat (piFraction / Nat.pow 2 (32 * (boxWords - 1 - i.val)) % 4294967296)

/-! ## The cipher -/

/-- The boxes: eighteen words of round keys, and four tables of 256 words in one
array. -/
structure Boxes where
  keys : Array UInt32
  tables : Array UInt32

def Boxes.initial : Boxes := ⟨piWords.extract 0 18, piWords.extract 18 boxWords⟩

/-- A block of the cipher in two halves. -/
structure Block where
  left : UInt32
  right : UInt32
deriving DecidableEq

namespace Boxes

def key (b : Boxes) (i : Nat) : UInt32 := b.keys.getD i 0

def mix (b : Boxes) (x : UInt32) : UInt32 :=
  let entry (table : Nat) (byte : UInt32) : UInt32 :=
    b.tables.getD (table * 256 + (byte &&& 0xFF).toNat) 0
  ((entry 0 (x >>> 24) + entry 1 (x >>> 16)) ^^^ entry 2 (x >>> 8)) + entry 3 x

/-- `n` pairs of rounds, from the pair with the round keys `2 i` and `2 i + 1`
on. -/
def rounds (b : Boxes) : Nat → Nat → UInt32 → UInt32 → Block
  | 0, _, left, right => ⟨left, right⟩
  | n + 1, i, left, right =>
    let left := left ^^^ b.key (2 * i)
    let right := right ^^^ b.mix left
    let right := right ^^^ b.key (2 * i + 1)
    let left := left ^^^ b.mix right
    rounds b n (i + 1) left right

def encrypt (b : Boxes) (x : Block) : Block :=
  let y := b.rounds 8 0 x.left x.right
  ⟨y.right ^^^ b.key 17, y.left ^^^ b.key 16⟩

/-! ## The key schedule -/

/-- Mixes key words into the round keys. -/
def mixKey (b : Boxes) (words : Array UInt32) : Boxes :=
  { b with keys := b.keys.mapIdx fun i k => k ^^^ words.getD i 0 }

/-- Replaces the round keys from place `2 i` on by what the cipher makes of the
block before, mixed with the salt. -/
def refillKeys (salt : Array UInt32) : Nat → Nat → Block → Boxes → Boxes × Block
  | 0, _, x, b => (b, x)
  | n + 1, i, x, b =>
    let y := b.encrypt ⟨x.left ^^^ salt.getD (2 * i % 4) 0, x.right ^^^ salt.getD (2 * i % 4 + 1) 0⟩
    let keys := (b.keys.setIfInBounds (2 * i) y.left).setIfInBounds (2 * i + 1) y.right
    refillKeys salt n (i + 1) y ⟨keys, b.tables⟩

/-- Replaces the tables from place `2 i` on in the same way.  The round keys used
up nine blocks, so the salt is out of step by one. -/
def refillTables (salt : Array UInt32) : Nat → Nat → Block → Boxes → Boxes
  | 0, _, _, b => b
  | n + 1, i, x, b =>
    let j := (2 * i + 2) % 4
    let y := b.encrypt ⟨x.left ^^^ salt.getD j 0, x.right ^^^ salt.getD (j + 1) 0⟩
    match b with
    | ⟨keys, tables⟩ =>
      let tables := (tables.setIfInBounds (2 * i) y.left).setIfInBounds (2 * i + 1) y.right
      refillTables salt n (i + 1) y ⟨keys, tables⟩

def expand (b : Boxes) (salt key : Array UInt32) : Boxes :=
  let (b, x) := refillKeys salt 9 0 ⟨0, 0⟩ (b.mixKey key)
  refillTables salt 512 0 x b

def expandTimes (salt key : Array UInt32) : Nat → Boxes → Boxes
  | 0, b => b
  | n + 1, b => expandTimes salt key n ((b.expand #[0, 0, 0, 0] key).expand #[0, 0, 0, 0] salt)

def encryptTimes (b : Boxes) : Nat → Block → Block
  | 0, x => x
  | n + 1, x => encryptTimes b n (b.encrypt x)

end Boxes

/-- The first `n` words of a byte sequence that repeats without end. -/
def cyclicWords (n : Nat) (bytes : List UInt8) : Array UInt32 :=
  let source := bytes.toArray
  let byte (i : Nat) : UInt32 := (source.getD (i % source.size) 0).toUInt32
  Array.ofFn (n := n) fun i =>
    (byte (4 * i.val) <<< 24) ||| (byte (4 * i.val + 1) <<< 16) |||
      (byte (4 * i.val + 2) <<< 8) ||| byte (4 * i.val + 3)

/-- The boxes after the costly key schedule, which takes `2 ^ cost` turns. -/
def schedule (cost : Nat) (salt key : List UInt8) : Boxes :=
  let key := cyclicWords 18 key
  let first := Boxes.initial.expand (cyclicWords 4 salt) key
  Boxes.expandTimes (cyclicWords 18 salt) key (Nat.pow 2 cost) first

def bytesOf (w : UInt32) : List UInt8 :=
  [(w >>> 24).toUInt8, (w >>> 16).toUInt8, (w >>> 8).toUInt8, w.toUInt8]

/-- The blocks that are enciphered: the text OrpheanBeholderScryDoubt. -/
def seed : List Block :=
  [⟨0x4F727068, 0x65616E42⟩, ⟨0x65686F6C, 0x64657253⟩, ⟨0x63727944, 0x6F756274⟩]

/-- The digest of a key under a salt of sixteen bytes, twenty-three bytes long. -/
def digest (cost : Nat) (salt key : List UInt8) : List UInt8 :=
  let b := schedule cost salt key
  let blocks := seed.map (b.encryptTimes 64)
  (blocks.flatMap fun x => bytesOf x.left ++ bytesOf x.right).take 23

end Blowfish
end BotFleet
