import BotFleet.Double
import Mathlib.Tactic.Linarith
import Mathlib.Tactic.Ring

/-
Rounding.

`Rounded` says of a whole number that it is nearest to a fraction, with ties to even, and by
this alone rounding keeps the order of fractions.  For doubles the same follows binade by
binade: two fractions that drop the same number of digits are rounded in the same units, and
between two others there lies a power of two, which is exact.

From the order follows the rest.  What is exact is rounded to itself, what lies between two
fractions that are rounded alike is rounded as they are, and a fraction is rounded by its
value, whatever terms it is written in.
-/

namespace BotFleet
namespace Double

variable {a b c d k m n q x : Nat}

/-! ## Whole numbers -/

/-- The whole number is nearest to `n / d`, and even if it is not alone. -/
structure Rounded (n d q : Nat) : Prop where
  le : 2 * (q * d) ≤ 2 * n + d
  ge : 2 * n ≤ 2 * (q * d) + d
  even_of_le : 2 * (q * d) = 2 * n + d → q % 2 = 0
  even_of_ge : 2 * n = 2 * (q * d) + d → q % 2 = 0

theorem rounded_nearestWhole (n : Nat) (hd : 0 < d) : Rounded n d (nearestWhole n d) := by
  have hdivision : n / d * d + n % d = n := Nat.div_add_mod' n d
  have hrest := Nat.mod_lt n hd
  rw [nearestWhole]
  by_cases hdown : 2 * (n % d) < d ∨ 2 * (n % d) = d ∧ n / d % 2 = 0
  · have htest : (decide (2 * (n % d) < d) || (2 * (n % d) == d && n / d % 2 == 0)) = true := by
      simpa using hdown
    rw [if_pos htest]
    exact ⟨by omega, by omega, by omega, by omega⟩
  · have htest : ¬(decide (2 * (n % d) < d) || (2 * (n % d) == d && n / d % 2 == 0)) = true := by
      simpa using hdown
    have hmul : (n / d + 1) * d = n / d * d + d := Nat.succ_mul _ _
    rw [if_neg htest]
    exact ⟨by omega, by omega, by omega, by omega⟩

/-- Rounding keeps the order of fractions. -/
theorem Rounded.mono {p q : Nat} (hb : 0 < b) (hd : 0 < d) (hp : Rounded a b p)
    (hq : Rounded c d q) (h : a * d ≤ c * b) : p ≤ q := by
  by_contra hlt
  -- The halfway point above `q` would have to be both fractions, and `p` and `q` even.
  have hnext : (q + 1) * b ≤ p * b := Nat.mul_le_mul_right b (by omega)
  rw [Nat.succ_mul] at hnext
  have hlow : 2 * (q * b) + b ≤ 2 * a := by have := hp.le; omega
  have hhigh := hq.ge
  have hmiddle : (2 * (q * b) + b) * d = (2 * (q * d) + d) * b := by ring
  have hupper : 2 * c * b ≤ (2 * (q * d) + d) * b := Nat.mul_le_mul_right b hhigh
  have hlower : (2 * (q * b) + b) * d ≤ 2 * a * d := Nat.mul_le_mul_right d hlow
  have hbetween : 2 * a * d ≤ 2 * c * b := by linarith
  have ha : 2 * a = 2 * (q * b) + b :=
    Nat.eq_of_mul_eq_mul_right hd (Nat.le_antisymm (by linarith) hlower)
  have hc : 2 * c = 2 * (q * d) + d :=
    Nat.eq_of_mul_eq_mul_right hb (Nat.le_antisymm hupper (by linarith))
  have hpq : p = q + 1 := by
    have hbound : p * b ≤ (q + 1) * b := by
      have := hp.le
      rw [Nat.succ_mul]
      omega
    have := Nat.le_of_mul_le_mul_right hbound hb
    omega
  have hpeven := hp.even_of_le (by rw [hpq, Nat.succ_mul q b]; omega)
  have hqeven := hq.even_of_ge hc
  omega

theorem nearestWhole_mono (hb : 0 < b) (hd : 0 < d) (h : a * d ≤ c * b) :
    nearestWhole a b ≤ nearestWhole c d :=
  (rounded_nearestWhole a hb).mono hb hd (rounded_nearestWhole c hd) h

theorem nearestWhole_mul_self (q : Nat) (hd : 0 < d) : nearestWhole (q * d) d = q := by
  rw [nearestWhole, Nat.mul_div_cancel q hd, Nat.mul_mod_left, Nat.mul_zero, decide_eq_true hd,
    Bool.true_or, if_pos rfl]

/-! ## Binades -/

theorem pow_pos_two (s : Nat) : 0 < Nat.pow 2 s := Nat.pow_pos (by decide)

theorem one_pos : 0 < one := by decide +kernel

theorem pow_add_two (s t : Nat) : Nat.pow 2 (s + t) = Nat.pow 2 s * Nat.pow 2 t := Nat.pow_add 2 s t

theorem spare_mono (h : m ≤ n) : spare m ≤ spare n :=
  spare_le_of_lt (Nat.lt_of_le_of_lt h (lt_pow_spare n))

theorem pow_le_of_lt_spare {s : Nat} (h : s < spare n) : Nat.pow 2 (53 + s) ≤ n := by
  by_contra hlt
  have := spare_le_of_lt (Nat.lt_of_not_le hlt)
  omega

theorem div_le_div (hb : 0 < b) (hd : 0 < d) (h : a * d ≤ c * b) : a / b ≤ c / d := by
  rw [Nat.le_div_iff_mul_le hd]
  refine Nat.le_of_mul_le_mul_right ?_ hb
  calc a / b * d * b = a / b * b * d := Nat.mul_right_comm _ _ _
    _ ≤ a * d := Nat.mul_le_mul_right d (Nat.div_mul_le_self a b)
    _ ≤ c * b := h

/-- A fraction is rounded to no more than the power of two that ends its binade. -/
theorem nearest_le_pow (a : Nat) (hb : 0 < b) :
    nearest a b ≤ Nat.pow 2 (53 + spare (a / b)) := by
  have hquotient := (Nat.div_lt_iff_lt_mul hb).mp (lt_pow_spare (a / b))
  rw [pow_add_two] at hquotient ⊢
  rw [nearest]
  refine Nat.mul_le_mul_right _ (nearestWhole_le ?_)
  calc a < Nat.pow 2 53 * Nat.pow 2 (spare (a / b)) * b := hquotient
    _ = _ := by ring

/-- A fraction from a power of two on is not rounded to less. -/
theorem pow_le_nearest {s : Nat} (hd : 0 < d) (hs : s < spare (c / d)) :
    Nat.pow 2 (53 + s) ≤ nearest c d := by
  obtain ⟨t, ht⟩ : ∃ t, spare (c / d) = t + 1 := ⟨spare (c / d) - 1, by omega⟩
  have hle : Nat.pow 2 (53 + s) ≤ Nat.pow 2 (53 + t) :=
    Nat.pow_le_pow_right (by decide) (by omega)
  have hquotient := pow_le_of_lt_spare (n := c / d) (s := t) (by omega)
  rw [Nat.le_div_iff_mul_le hd] at hquotient
  have hunit : Nat.pow 2 (53 + t) = Nat.pow 2 52 * Nat.pow 2 (t + 1) := by
    rw [← pow_add_two]
    congr 1
    omega
  have hpos : 0 < d * Nat.pow 2 (t + 1) := Nat.mul_pos hd (pow_pos_two _)
  refine Nat.le_trans hle ?_
  rw [nearest, ht, hunit]
  refine Nat.mul_le_mul_right _ ?_
  rw [← nearestWhole_mul_self (Nat.pow 2 52) hpos]
  refine nearestWhole_mono hpos hpos (Nat.mul_le_mul_right _ ?_)
  calc Nat.pow 2 52 * (d * Nat.pow 2 (t + 1)) = Nat.pow 2 (53 + t) * d := by rw [hunit]; ring
    _ ≤ c := hquotient

/-- Rounding keeps the order of fractions. -/
theorem nearest_mono (hb : 0 < b) (hd : 0 < d) (h : a * d ≤ c * b) : nearest a b ≤ nearest c d := by
  rcases Nat.lt_or_eq_of_le (spare_mono (div_le_div hb hd h)) with hless | hsame
  · exact Nat.le_trans (nearest_le_pow a hb) (pow_le_nearest hd hless)
  · rw [nearest, nearest, hsame]
    refine Nat.mul_le_mul_right _ (nearestWhole_mono (Nat.mul_pos hb (pow_pos_two _))
      (Nat.mul_pos hd (pow_pos_two _)) ?_)
    calc a * (d * Nat.pow 2 (spare (c / d))) = a * d * Nat.pow 2 (spare (c / d)) := by ring
      _ ≤ c * b * Nat.pow 2 (spare (c / d)) := Nat.mul_le_mul_right _ h
      _ = _ := by ring

/-- A fraction is rounded by its value. -/
theorem nearest_congr (hb : 0 < b) (hd : 0 < d) (h : a * d = c * b) : nearest a b = nearest c d :=
  Nat.le_antisymm (nearest_mono hb hd (Nat.le_of_eq h)) (nearest_mono hd hb (Nat.le_of_eq h.symm))

/-- What is exact is rounded to itself. -/
theorem nearest_mul_self (hx : IsExact x) (hd : 0 < d) : nearest (x * d) d = x := by
  obtain ⟨y, hy⟩ := hx
  have hpos : 0 < d * Nat.pow 2 (spare x) := Nat.mul_pos hd (pow_pos_two _)
  have hmul : x * d = y * (d * Nat.pow 2 (spare x)) := by
    calc x * d = Nat.pow 2 (spare x) * y * d := by rw [← hy]
      _ = _ := by ring
  rw [nearest, Nat.mul_div_cancel x hd, hmul, nearestWhole_mul_self y hpos, Nat.mul_comm, ← hy]

theorem nearest_one (hx : IsExact x) : nearest x 1 = x := by
  have h := nearest_mul_self hx Nat.one_pos
  rwa [Nat.mul_one] at h

/-! ## How far a number is moved -/

theorem unit_le (h : n ≠ 0) : Nat.pow 2 (spare n) ≤ n := by
  have hspare : spare n ≤ n.log2 := by
    unfold spare
    omega
  exact Nat.le_trans (Nat.pow_le_pow_right (by decide) hspare) (Nat.log2_self_le h)

/-- A fraction within a quarter of a unit of what is exact is rounded to it. -/
theorem nearest_of_close (hx : IsExact x) (hd : 0 < d) (hlow : 4 * (x * d) ≤ 4 * a + d)
    (hhigh : 4 * a ≤ 4 * (x * d) + d) : nearest a d = x := by
  have hquotient : a / d ≤ x := by
    refine Nat.le_of_lt_succ ((Nat.div_lt_iff_lt_mul hd).mpr ?_)
    rw [Nat.succ_mul]
    omega
  obtain ⟨y, hy⟩ := Nat.dvd_trans (Nat.pow_dvd_pow 2 (spare_mono hquotient)) hx
  obtain ⟨unit, hunit⟩ : ∃ unit, d * Nat.pow 2 (spare (a / d)) = unit := ⟨_, rfl⟩
  have hpos : 0 < unit := hunit ▸ Nat.mul_pos hd (pow_pos_two _)
  have hle : d ≤ unit := hunit ▸ Nat.le_mul_of_pos_right d (pow_pos_two _)
  have hmul : x * d = y * unit := by
    rw [← hunit, hy]
    show Nat.pow 2 (spare (a / d)) * y * d = _
    ring
  rw [hmul] at hlow hhigh
  have hround := rounded_nearestWhole a hpos
  have hge := hround.ge
  have hle := hround.le
  have hsame : nearestWhole a unit = y := by
    refine Nat.le_antisymm (Nat.le_of_lt_succ ?_) (Nat.le_of_lt_succ ?_)
    · refine Nat.lt_of_mul_lt_mul_right (a := unit) ?_
      rw [Nat.succ_mul]
      omega
    · refine Nat.lt_of_mul_lt_mul_right (a := unit) ?_
      rw [Nat.succ_mul]
      omega
  rw [nearest, hunit, hsame, hy]
  exact Nat.mul_comm _ _

/-- Rounding at most doubles a fraction. -/
theorem nearest_mul_le (n : Nat) (hd : 0 < d) : nearest n d * d ≤ 2 * n := by
  obtain ⟨unit, hunit⟩ : ∃ unit, d * Nat.pow 2 (spare (n / d)) = unit := ⟨_, rfl⟩
  have hmul : nearest n d * d = nearestWhole n unit * unit := by
    rw [nearest, hunit, ← hunit]
    ring
  have hpos : 0 < unit := hunit ▸ Nat.mul_pos hd (pow_pos_two _)
  have hround := (rounded_nearestWhole n hpos).le
  rw [hmul]
  by_cases hzero : n / d = 0
  · have hone : unit = d := by
      rw [← hunit, hzero]
      exact Nat.mul_one d
    have hle : nearestWhole n unit ≤ 1 := by
      have hlt := (Nat.div_eq_zero_iff_lt hd).mp hzero
      exact nearestWhole_le (by omega)
    rcases Nat.le_one_iff_eq_zero_or_eq_one.mp hle with h | h <;> rw [h] at hround ⊢ <;> omega
  · have hle : unit ≤ n := by
      rw [← hunit, Nat.mul_comm]
      exact (Nat.le_div_iff_mul_le hd).mp (unit_le hzero)
    omega

end Double
end BotFleet
