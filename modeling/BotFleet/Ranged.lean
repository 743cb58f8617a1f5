/-
Whole numbers between two bounds.

An identifier, a port or a work factor is a whole number that fits a fixed
width.  `Ranged lo hi` carries the proof that it does, so a value of the type
can always be written out and read back.
-/

namespace BotFleet

/-- The whole numbers from `lo` to `hi`. -/
def Ranged (lo hi : Int) : Type := { n : Int // lo ≤ n ∧ n ≤ hi }

namespace Ranged

variable {lo hi : Int}

instance : DecidableEq (Ranged lo hi) := inferInstanceAs (DecidableEq (Subtype _))

instance : LE (Ranged lo hi) := ⟨fun a b => a.val ≤ b.val⟩
instance : LT (Ranged lo hi) := ⟨fun a b => a.val < b.val⟩
instance (a b : Ranged lo hi) : Decidable (a ≤ b) := inferInstanceAs (Decidable (a.val ≤ b.val))
instance (a b : Ranged lo hi) : Decidable (a < b) := inferInstanceAs (Decidable (a.val < b.val))
instance : Repr (Ranged lo hi) := ⟨fun a => reprPrec a.val⟩

theorem ext {a b : Ranged lo hi} (h : a.val = b.val) : a = b := Subtype.ext h

def ofInt? (lo hi n : Int) : Option (Ranged lo hi) :=
  if h : lo ≤ n ∧ n ≤ hi then some ⟨n, h⟩ else none

@[simp] theorem ofInt?_val (a : Ranged lo hi) : ofInt? lo hi a.val = some a := by
  simp only [ofInt?, a.property, and_self, dite_true]
  rfl

theorem val_of_ofInt? {n : Int} {a : Ranged lo hi} (h : ofInt? lo hi n = some a) : a.val = n := by
  unfold ofInt? at h
  split at h
  · exact (congrArg Subtype.val (Option.some.inj h)).symm
  · cases h

def clamp (lo hi : Int) (h : lo ≤ hi) (n : Int) : Ranged lo hi := ⟨max lo (min n hi), by omega⟩

end Ranged

/-- A row's identifier. -/
abbrev Id := Ranged (-9223372036854775808) 9223372036854775807

def Id.zero : Id := ⟨0, by decide⟩

abbrev Tally := Ranged 0 18446744073709551615

abbrev Cost := Ranged 0 4294967295

abbrev Port := Ranged 0 65535

abbrev Channel := Ranged (-2147483648) 2147483647

end BotFleet
