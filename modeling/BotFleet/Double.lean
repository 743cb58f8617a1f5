/-
Doubles.

The magnitude of a double is counted in units, the least of all doubles beyond zero, of
which `one` make one.  It has 53 binary digits and zeros after them, so there are few
magnitudes among the large whole numbers, and whatever lies between two of them is rounded
to the nearer one.

The end of the range is `limit`.  A decimal numeral can be rounded once, as a whole, or its
digits and its power of ten can be rounded first and their product or quotient again; the
two ways may give different doubles, and near the end of the range only one of them may
give any.
-/

namespace BotFleet
namespace Double

/-! ## Rounding -/

/-- How many binary digits of a whole number a double drops. -/
def spare (n : Nat) : Nat := n.log2 + 1 - 53

/-- The number has 53 binary digits and zeros after them. -/
def IsExact (n : Nat) : Prop := Nat.pow 2 (spare n) ∣ n

/-- The whole number nearest to `n / d`.  A tie goes to the even neighbour. -/
def nearestWhole (n d : Nat) : Nat :=
  let below := n / d
  let twice := 2 * (n % d)
  if twice < d || (twice == d && below % 2 == 0) then below else below + 1

/-- The number of 53 binary digits with zeros after them that is nearest to `n / d`. -/
def nearest (n d : Nat) : Nat :=
  let unit := Nat.pow 2 (spare (n / d))
  nearestWhole n (d * unit) * unit

theorem lt_pow_spare (n : Nat) : n < Nat.pow 2 (53 + spare n) := by
  have hle : Nat.pow 2 (n.log2 + 1) ≤ Nat.pow 2 (53 + spare n) :=
    Nat.pow_le_pow_right (by decide) (by unfold spare; omega)
  exact Nat.lt_of_lt_of_le Nat.lt_log2_self hle

theorem spare_le_of_lt {n s : Nat} (h : n < Nat.pow 2 (53 + s)) : spare n ≤ s := by
  unfold spare
  by_cases hn : n = 0
  · subst hn
    exact Nat.zero_le s
  · have hlog : n.log2 < 53 + s := (Nat.log2_lt hn).mpr h
    omega

theorem nearestWhole_le {n d k : Nat} (h : n < k * d) : nearestWhole n d ≤ k := by
  have hd : 0 < d := Nat.pos_of_ne_zero fun hd => by simp [hd] at h
  have hbelow : n / d < k := (Nat.div_lt_iff_lt_mul hd).mpr h
  unfold nearestWhole
  dsimp only
  split <;> omega

/-- At most 53 binary digits with zeros after them, or the power of two beyond them. -/
theorem isExact_mul_pow {m s : Nat} (h : m ≤ Nat.pow 2 53) : IsExact (m * Nat.pow 2 s) := by
  rw [IsExact]
  rcases Nat.lt_or_eq_of_le h with hlt | rfl
  · have hbound : m * Nat.pow 2 s < Nat.pow 2 (53 + s) := by
      have hpow : Nat.pow 2 (53 + s) = Nat.pow 2 53 * Nat.pow 2 s := Nat.pow_add 2 53 s
      rw [hpow]
      exact Nat.mul_lt_mul_of_pos_right hlt (Nat.pow_pos (by decide))
    exact Nat.dvd_trans (Nat.pow_dvd_pow 2 (spare_le_of_lt hbound)) (Nat.dvd_mul_left _ m)
  · have hpow : Nat.pow 2 53 * Nat.pow 2 s = Nat.pow 2 (53 + s) := (Nat.pow_add 2 53 s).symm
    have hbound : Nat.pow 2 (53 + s) < Nat.pow 2 (53 + (s + 1)) :=
      Nat.pow_lt_pow_right (by decide) (by omega)
    have hspare := spare_le_of_lt hbound
    rw [hpow]
    exact Nat.pow_dvd_pow 2 (by omega)

theorem isExact_nearest (n d : Nat) : IsExact (nearest n d) := by
  rw [nearest]
  refine isExact_mul_pow ?_
  by_cases hd : d = 0
  · subst hd
    have hone : nearestWhole n (0 * Nat.pow 2 (spare (n / 0))) ≤ 1 := by
      simp only [nearestWhole, Nat.zero_mul, Nat.div_zero]
      split <;> decide
    exact Nat.le_trans hone (by decide)
  · have hquotient := (Nat.div_lt_iff_lt_mul (Nat.pos_of_ne_zero hd)).mp (lt_pow_spare (n / d))
    have hpow : Nat.pow 2 (53 + spare (n / d)) = Nat.pow 2 53 * Nat.pow 2 (spare (n / d)) :=
      Nat.pow_add 2 53 _
    refine nearestWhole_le ?_
    rw [hpow, Nat.mul_assoc, Nat.mul_comm (Nat.pow 2 (spare (n / d))) d] at hquotient
    exact hquotient

/-! ## The range of doubles -/

/-- How many units make one. -/
@[irreducible] def one : Nat := Nat.pow 2 1074

/-- The least power of two beyond all doubles. -/
@[irreducible] def limit : Nat := Nat.pow 2 1024

/-- The least magnitude that rounds to the limit. -/
def overflow : Nat := limit - Nat.pow 2 970

/-- Whether the digits times `10 ^ exponent`, rounded once, are within range.
The number of digits settles the extreme exponents before any power is
formed. -/
def holds (digits : List Char) (exponent : Int) : Bool :=
  let significant := digits.dropWhile (· == '0')
  let n := Nat.ofDigitChars 10 significant 0
  let order : Int := significant.length + exponent
  if significant.isEmpty || order < -400 then true
  else if 310 < order then false
  else if 0 ≤ exponent then n * Nat.pow 10 exponent.toNat < overflow
  else n < overflow * Nat.pow 10 (-exponent).toNat

end Double

/-- A double that is neither infinite nor undefined.  Zero may have a sign. -/
structure Double where
  negative : Bool
  units : Nat
  exact : Double.IsExact units
  finite : units < Double.limit * Double.one
deriving DecidableEq

namespace Double

def zero (negative : Bool) : Double := ⟨negative, 0, Nat.dvd_zero _, by decide +kernel⟩

/-- The double of a magnitude, if that is within range. -/
def ofUnits? (negative : Bool) (units : Nat) (h : IsExact units) : Option Double :=
  if hlt : units < limit * one then some ⟨negative, units, h, hlt⟩ else none

/-! ## Significands and powers of ten -/

/-- A power of ten as a double.  It is a whole number. -/
def power (k : Nat) : Nat := nearest (Nat.pow 10 k) 1

/-- A magnitude divided by a power of ten.  There is no power beyond the one with exponent 308, so
a higher one is divided by in parts. -/
def dividePower (units k : Nat) : Nat :=
  if k ≤ 308 then nearest units (power k)
  else if units = 0 then 0
  else dividePower (nearest units (power 308)) (k - 308)
termination_by k

theorem isExact_dividePower (units k : Nat) : IsExact (dividePower units k) := by
  fun_induction dividePower units k with
  | case1 units k => exact isExact_nearest _ _
  | case2 => exact Nat.dvd_zero _
  | case3 _ _ _ _ ih => exact ih

/-- The double that a significand and a power of ten give, each rounded first and their product or
quotient again, if it is within range. -/
def ofParts? (negative : Bool) (significand : Nat) (exponent : Int) : Option Double :=
  let units := nearest (significand * one) 1
  if exponent < 0 then
    ofUnits? negative (dividePower units (-exponent).toNat) (isExact_dividePower _ _)
  else if exponent ≤ 308 then
    ofUnits? negative (nearest (units * power exponent.toNat) 1) (isExact_nearest _ _)
  else if units = 0 then some (zero negative)
  else none

/-! ## Short decimals -/

/-- A decimal `digits * 10 ^ exponent`. -/
structure Decimal where
  digits : Nat
  exponent : Int
deriving DecidableEq, Repr

namespace Decimal

/-- The power of ten that the digits are multiplied with. -/
def times (exponent : Int) : Nat := Nat.pow 10 exponent.toNat

/-- The power of ten that the digits are divided by. -/
def parts (exponent : Int) : Nat := Nat.pow 10 (-exponent).toNat

/-- The magnitude nearest to a decimal. -/
def units (d : Decimal) : Nat := nearest (d.digits * (one * times d.exponent)) (parts d.exponent)

/-- The digits of the decimal below a magnitude. -/
def below (units : Nat) (exponent : Int) : Nat := units * parts exponent / (one * times exponent)

/-- The decimal of the exponent that is nearest to a magnitude. -/
def near (units : Nat) (exponent : Int) : Decimal :=
  ⟨nearestWhole (units * parts exponent) (one * times exponent), exponent⟩

/-- The decimal of the exponent on the other side of a magnitude. -/
def far (units : Nat) (exponent : Int) : Decimal :=
  let below := below units exponent
  ⟨if (near units exponent).digits = below then below + 1 else below, exponent⟩

/-- A decimal of the exponent that is rounded to the magnitude, the nearer one of two. -/
def hit? (units : Nat) (exponent : Int) : Option Decimal :=
  if (near units exponent).units = units then some (near units exponent)
  else if (far units exponent).units = units then some (far units exponent)
  else none

/-- The first hit as the exponents go down from that of the step. -/
def search (units : Nat) : Nat → Decimal
  | 0 => near units (-324)
  | step + 1 => (hit? units (step - 323)).getD (search units step)

/-- The decimal with the fewest digits that is rounded to the magnitude. -/
def shortest (units : Nat) : Decimal := if units = 0 then ⟨0, 0⟩ else search units 632

end Decimal
end Double
end BotFleet
