import BotFleet.Proofs.Double

/-
Decimals with few digits.

A magnitude is written as a decimal of the greatest exponent at which one is rounded to it.
Only the two decimals next to the magnitude need to be tried: if any decimal of the exponent
is rounded to it, then so is the one of the two that lies between, because rounding keeps the
order.

A magnitude that comes from a short decimal is therefore written with an exponent that is not
less, and with digits that are not many more.  They and the power of ten are exact, so reading
them rounds only once.
-/

namespace BotFleet
namespace Double

namespace Decimal

variable {units m : Nat} {exponent : Int} {d : Decimal}

theorem times_pos (exponent : Int) : 0 < one * times exponent :=
  Nat.mul_pos one_pos (Nat.pow_pos (by decide))

theorem parts_pos (exponent : Int) : 0 < parts exponent := Nat.pow_pos (by decide)

/-! ## The decimals next to a magnitude -/

theorem near_or_far (units : Nat) (exponent : Int) :
    (near units exponent = ⟨below units exponent, exponent⟩ ∧
        far units exponent = ⟨below units exponent + 1, exponent⟩) ∨
      near units exponent = ⟨below units exponent + 1, exponent⟩ ∧
        far units exponent = ⟨below units exponent, exponent⟩ := by
  have hnear : (near units exponent).digits = below units exponent ∨
      (near units exponent).digits = below units exponent + 1 := by
    show nearestWhole _ _ = _ ∨ nearestWhole _ _ = _
    rw [nearestWhole]
    split
    · exact .inl rfl
    · exact .inr rfl
  have hfar : far units exponent =
      ⟨if (near units exponent).digits = below units exponent then below units exponent + 1
        else below units exponent, exponent⟩ := rfl
  rcases hnear with h | h
  · exact .inl ⟨congrArg (Decimal.mk · exponent) h, by rw [hfar, if_pos h]⟩
  · exact .inr ⟨congrArg (Decimal.mk · exponent) h, by rw [hfar, if_neg (by omega)]⟩

/-- A decimal below the magnitude is rounded to no more. -/
theorem units_le_of_le (hunits : IsExact units) (h : m ≤ below units exponent) :
    (Decimal.mk m exponent).units ≤ units := by
  have hmul : m * (one * times exponent) ≤ units * parts exponent :=
    (Nat.le_div_iff_mul_le (times_pos exponent)).mp h
  calc (Decimal.mk m exponent).units
      ≤ nearest (units * parts exponent) (parts exponent) :=
        nearest_mono (parts_pos exponent) (parts_pos exponent) (Nat.mul_le_mul_right _ hmul)
    _ = units := nearest_mul_self hunits (parts_pos exponent)

/-- A decimal above the magnitude is rounded to no less. -/
theorem le_units_of_lt (hunits : IsExact units) (h : below units exponent < m) :
    units ≤ (Decimal.mk m exponent).units := by
  have hmul : units * parts exponent < m * (one * times exponent) :=
    (Nat.div_lt_iff_lt_mul (times_pos exponent)).mp h
  calc units = nearest (units * parts exponent) (parts exponent) :=
        (nearest_mul_self hunits (parts_pos exponent)).symm
    _ ≤ (Decimal.mk m exponent).units :=
        nearest_mono (parts_pos exponent) (parts_pos exponent)
          (Nat.mul_le_mul_right _ (Nat.le_of_lt hmul))

theorem units_mono (exponent : Int) {k : Nat} (h : m ≤ k) :
    (Decimal.mk m exponent).units ≤ (Decimal.mk k exponent).units :=
  nearest_mono (parts_pos exponent) (parts_pos exponent)
    (Nat.mul_le_mul_right _ (Nat.mul_le_mul_right _ h))

/-- If a decimal is rounded to the magnitude, one of the two next to it is. -/
theorem units_below_or_above (hunits : IsExact units) (h : (Decimal.mk m exponent).units = units) :
    (Decimal.mk (below units exponent) exponent).units = units ∨
      (Decimal.mk (below units exponent + 1) exponent).units = units := by
  rcases Nat.lt_or_ge (below units exponent) m with hlt | hge
  · have hle := units_mono exponent (Nat.succ_le_of_lt hlt)
    exact .inr (Nat.le_antisymm (h ▸ hle) (le_units_of_lt hunits (Nat.lt_succ_self _)))
  · have hle := units_mono exponent hge
    exact .inl (Nat.le_antisymm (units_le_of_le hunits (Nat.le_refl _)) (h ▸ hle))

/-- There is a hit at an exponent if some decimal of it is rounded to the magnitude. -/
theorem isSome_hit? (hunits : IsExact units) (h : (Decimal.mk m exponent).units = units) :
    (hit? units exponent).isSome := by
  have hnext : (near units exponent).units = units ∨ (far units exponent).units = units := by
    rcases near_or_far units exponent with ⟨hnear, hfar⟩ | ⟨hnear, hfar⟩
    · rw [hnear, hfar]
      exact units_below_or_above hunits h
    · rw [hnear, hfar]
      exact (units_below_or_above hunits h).symm
  rw [hit?]
  by_cases hnear : (near units exponent).units = units
  · rw [if_pos hnear]
    rfl
  · rw [if_neg hnear, if_pos (hnext.resolve_left hnear)]
    rfl

/-- The decimal is next to the magnitude and is rounded to it. -/
structure Hits (d : Decimal) (units : Nat) : Prop where
  units_eq : d.units = units
  digits_le : d.digits ≤ below units d.exponent + 1

theorem hits_of_hit? (h : hit? units exponent = some d) : d.exponent = exponent ∧ d.Hits units := by
  have hdigits : (near units exponent).digits ≤ below units exponent + 1 ∧
      (far units exponent).digits ≤ below units exponent + 1 := by
    rcases near_or_far units exponent with ⟨hnear, hfar⟩ | ⟨hnear, hfar⟩ <;>
      rw [hnear, hfar] <;> simp
  rw [hit?] at h
  split at h
  · rename_i hunits
    cases h
    exact ⟨rfl, hunits, hdigits.1⟩
  · split at h
    · rename_i hunits
      cases h
      exact ⟨rfl, hunits, hdigits.2⟩
    · cases h

/-! ## The search -/

/-- Going down, the search comes upon a hit before it has passed any. -/
theorem search_of_isSome {step top : Nat} (h : (hit? units (step - 323)).isSome)
    (htop : step < top) :
    ∃ exponent : Int, step - 323 ≤ exponent ∧ hit? units exponent = some (search units top) := by
  induction top with
  | zero => exact absurd htop (Nat.not_lt_zero step)
  | succ top ih =>
    rw [search]
    cases hhit : hit? units (top - 323) with
    | some d => exact ⟨top - 323, by omega, hhit⟩
    | none =>
      have hne : step ≠ top := fun heq => by
        rw [heq, hhit] at h
        cases h
      exact ih (by omega)

/-- If a decimal of an exponent in range is rounded to the magnitude, then the shortest one hits
it and has no lesser exponent. -/
theorem shortest_hits (hunits : IsExact units) (hpos : units ≠ 0) (hlow : -323 ≤ exponent)
    (hhigh : exponent ≤ 308) (h : (Decimal.mk m exponent).units = units) :
    (shortest units).Hits units ∧ exponent ≤ (shortest units).exponent := by
  obtain ⟨step, hstep⟩ : ∃ step : Nat, exponent = step - 323 :=
    ⟨(exponent + 323).toNat, by omega⟩
  subst hstep
  have htop : step < 632 := by omega
  obtain ⟨found, hle, hfound⟩ := search_of_isSome (isSome_hit? hunits h) htop
  obtain ⟨hexponent, hhits⟩ := hits_of_hit? hfound
  rw [shortest, if_neg hpos]
  exact ⟨hhits, hexponent ▸ hle⟩

/-- On the finest grid every magnitude is close to a decimal. -/
theorem units_near (hunits : IsExact units) : (near units (-324)).units = units := by
  obtain ⟨n, hn⟩ : ∃ n, nearestWhole (units * parts (-324)) (one * times (-324)) = n := ⟨_, rfl⟩
  have hround := rounded_nearestWhole (units * parts (-324)) (times_pos (-324))
  have hfine : 2 * (one * times (-324)) ≤ parts (-324) := by decide +kernel
  rw [hn] at hround
  have hle := hround.le
  have hge := hround.ge
  rw [near, hn, Decimal.units]
  dsimp only
  exact nearest_of_close hunits (parts_pos (-324)) (by omega) (by omega)

theorem units_search (hunits : IsExact units) (step : Nat) :
    (search units step).units = units := by
  induction step with
  | zero => exact units_near hunits
  | succ step ih =>
    rw [search]
    cases hhit : hit? units (step - 323) with
    | none => exact ih
    | some d => exact (hits_of_hit? hhit).2.units_eq

/-- Digits that are all zero are rounded to zero. -/
theorem units_zero (exponent : Int) : (Decimal.mk 0 exponent).units = 0 := by
  have hmul : 0 * (one * times exponent) = 0 * parts exponent := by rw [Nat.zero_mul, Nat.zero_mul]
  rw [Decimal.units, hmul]
  exact nearest_mul_self (Nat.dvd_zero _) (parts_pos exponent)

/-- The decimal that a magnitude is written as is rounded to it. -/
theorem units_shortest (hunits : IsExact units) : (shortest units).units = units := by
  rw [shortest]
  by_cases hzero : units = 0
  · rw [if_pos hzero, hzero]
    exact units_zero 0
  · rw [if_neg hzero]
    exact units_search hunits 632

/-- Only zero is written with the digit zero. -/
theorem exponent_shortest (hunits : IsExact units) (h : (shortest units).digits = 0) :
    (shortest units).exponent = 0 := by
  have hshortest := units_shortest hunits
  have hdecimal : shortest units = ⟨0, (shortest units).exponent⟩ :=
    congrArg (Decimal.mk · (shortest units).exponent) h
  rw [hdecimal, units_zero] at hshortest
  rw [← hshortest]
  rfl

end Decimal

/-! ## Significands that are not rounded -/

variable {n t : Nat} {x : Double}

/-- The double is nearest to `n / 10 ^ t`, and neither `n` nor the power of ten is rounded. -/
structure Spelled (x : Double) (n t : Nat) : Prop where
  exact : IsExact (n * one)
  le : t ≤ 22
  units_eq : x.units = nearest (n * one) (Nat.pow 10 t)

theorem power_eq (h : t ≤ 22) : power t = Nat.pow 10 t := by
  have hall : ∀ k : Fin 23, power k.val = Nat.pow 10 k.val := by decide +kernel
  exact hall ⟨t, by omega⟩

theorem one_eq_pow : ∃ s, one = Nat.pow 2 s := ⟨1074, by decide +kernel⟩

theorem isExact_mul_one (h : n ≤ Nat.pow 2 53) : IsExact (n * one) := by
  obtain ⟨s, hs⟩ := one_eq_pow
  rw [hs]
  exact isExact_mul_pow h

theorem isExact_double_mul_one (h : n ≤ Nat.pow 2 53) : IsExact (2 * n * one) := by
  obtain ⟨s, hs⟩ := one_eq_pow
  have hmul : 2 * n * Nat.pow 2 s = n * Nat.pow 2 (s + 1) := by
    rw [pow_add_two]
    show 2 * n * Nat.pow 2 s = n * (Nat.pow 2 s * 2)
    ring
  rw [hs, hmul]
  exact isExact_mul_pow h

theorem ofUnits?_units (x : Double) (h : IsExact n) (hn : n = x.units) :
    ofUnits? x.negative n h = some x := by
  subst hn
  rw [ofUnits?, dif_pos x.finite]

/-- What is not rounded on the way leads to the nearest double. -/
theorem Spelled.ofParts? (h : x.Spelled n t) : ofParts? x.negative n (-t) = some x := by
  have hunits : nearest (n * one) 1 = n * one := nearest_one h.exact
  have hpower := power_eq h.le
  have hle := h.le
  rw [Double.ofParts?]
  by_cases ht : 0 < t
  · have hexponent : (-(-(t : Int))).toNat = t := by omega
    rw [if_pos (by omega)]
    refine ofUnits?_units x _ ?_
    rw [hexponent, dividePower, if_pos (by omega), hunits, hpower, h.units_eq]
  · have hzero : t = 0 := by omega
    have hexponent : (-(t : Int)).toNat = t := by omega
    rw [if_neg (by omega), if_pos (by omega)]
    refine ofUnits?_units x _ ?_
    rw [hexponent, hunits, hpower, h.units_eq, hzero, Nat.pow_eq, Nat.pow_zero, Nat.mul_one]

/-- Whole numbers far below the end of the range are within it. -/
theorem isSome_ofParts? {negative : Bool} (h : n < 18446744073709551616) :
    (Double.ofParts? negative n 0).isSome := by
  have hfirst := nearest_mul_le (n * one) Nat.one_pos
  have hpower : power 0 = 1 := power_eq (by decide)
  have hsecond := nearest_mul_le (nearest (n * one) 1) Nat.one_pos
  have hlimit : 4 * 18446744073709551616 < limit := by decide +kernel
  have hlt : 4 * n * one < limit * one := Nat.mul_lt_mul_of_pos_right (by omega) one_pos
  have hin : nearest (nearest (n * one) 1 * power 0) 1 < limit * one := by
    rw [hpower, Nat.mul_one]
    rw [Nat.mul_assoc] at hlt
    omega
  rw [Double.ofParts?, if_neg (by decide), if_pos (by decide)]
  show (ofUnits? negative (nearest (nearest (n * one) 1 * power 0) 1) _).isSome
  rw [ofUnits?, dif_pos hin]
  rfl

/-! ## Short decimals -/

/-- The double nearest to a decimal of at most fifteen digits, of which at most twenty-two places
stand behind the point. -/
def IsShort (x : Double) : Prop :=
  ∃ m s, m < Nat.pow 10 15 ∧ s ≤ 22 ∧ x.units = nearest (m * one) (Nat.pow 10 s)

namespace Decimal

variable {units m s : Nat} {d : Decimal}

theorem units_of_nonpos (h : d.exponent ≤ 0) :
    d.units = nearest (d.digits * one) (Nat.pow 10 (-d.exponent).toNat) := by
  have htimes : times d.exponent = 1 := by
    rw [times, Int.toNat_of_nonpos h]
  rw [Decimal.units, htimes, Nat.mul_one]
  rfl

theorem units_of_nonneg (h : 0 ≤ d.exponent) :
    d.units = nearest (d.digits * Nat.pow 10 d.exponent.toNat * one) 1 := by
  have hparts : parts d.exponent = 1 := by
    rw [parts, Int.toNat_of_nonpos (by omega)]
  rw [Decimal.units, hparts, times]
  exact congrArg (nearest · 1) (by ring)

/-- A magnitude that comes from a short decimal and is written with places has hardly more digits
than that. -/
theorem Hits.digits_le_double (h : d.Hits units) (hm : m < Nat.pow 10 15)
    (hunits : units = nearest (m * one) (Nat.pow 10 s)) (hneg : d.exponent ≤ 0)
    (hle : -s ≤ d.exponent) : d.digits ≤ 2 * Nat.pow 10 15 := by
  have htimes : times d.exponent = 1 := by rw [times, Int.toNat_of_nonpos hneg]
  have hparts : parts d.exponent ≤ Nat.pow 10 s :=
    Nat.pow_le_pow_right (by decide) (by omega)
  have hbelow : below units d.exponent * one ≤ units * parts d.exponent := by
    rw [below, htimes, Nat.mul_one]
    exact Nat.div_mul_le_self _ _
  have hdouble : units * Nat.pow 10 s ≤ 2 * (m * one) :=
    hunits ▸ nearest_mul_le (m * one) (Nat.pow_pos (by decide))
  have hlast : below units d.exponent ≤ 2 * m := by
    refine Nat.le_of_mul_le_mul_right ?_ one_pos
    calc below units d.exponent * one ≤ units * parts d.exponent := hbelow
      _ ≤ units * Nat.pow 10 s := Nat.mul_le_mul_left _ hparts
      _ ≤ 2 * (m * one) := hdouble
      _ = 2 * m * one := by ring
  have hdigits := h.digits_le
  omega

/-- If it is written without places, it is a whole number with no more digits. -/
theorem Hits.mul_pow_le (h : d.Hits units) (hm : m < Nat.pow 10 15)
    (hunits : units = nearest (m * one) (Nat.pow 10 s)) (hpos : 0 ≤ d.exponent) :
    d.digits * Nat.pow 10 d.exponent.toNat ≤ Nat.pow 10 15 := by
  by_contra hlt
  have hexact {k : Nat} (hk : k ≤ Nat.pow 10 15 + 1) : nearest (k * one) 1 = k * one :=
    nearest_one (isExact_mul_one (Nat.le_trans hk (by decide)))
  have hlow : (Nat.pow 10 15 + 1) * one ≤ units := by
    rw [← hexact (Nat.le_refl _), ← h.units_eq, units_of_nonneg hpos]
    refine nearest_mono Nat.one_pos Nat.one_pos ?_
    exact Nat.mul_le_mul_right _ (Nat.mul_le_mul_right _ (by omega))
  have hhigh : units ≤ Nat.pow 10 15 * one := by
    rw [← hexact (Nat.le_succ _), hunits]
    refine nearest_mono (Nat.pow_pos (by decide)) Nat.one_pos ?_
    calc m * one * 1 = m * one := Nat.mul_one _
      _ ≤ Nat.pow 10 15 * one := Nat.mul_le_mul_right _ (Nat.le_of_lt hm)
      _ ≤ Nat.pow 10 15 * one * Nat.pow 10 s := Nat.le_mul_of_pos_right _ (Nat.pow_pos (by decide))
  have hone := one_pos
  rw [Nat.succ_mul] at hlow
  omega

end Decimal

variable {m s : Nat}

open Decimal (shortest)

/-- A short decimal is rounded to the double, so the search comes upon it or upon a hit before. -/
theorem shortest_hits_of_nearest (hs : s ≤ 22) (hne : x.units ≠ 0)
    (hunits : x.units = nearest (m * one) (Nat.pow 10 s)) :
    (shortest x.units).Hits x.units ∧ -(s : Int) ≤ (shortest x.units).exponent := by
  refine Decimal.shortest_hits (m := m) x.exact hne (by omega) (by omega) ?_
  rw [Decimal.units_of_nonpos (by simp), hunits]
  simp only [neg_neg, Int.toNat_natCast]

/-- A short double that is written with places is spelled by the digits of its decimal. -/
theorem IsShort.spelled_of_neg (h : x.IsShort) (hneg : (shortest x.units).exponent < 0) :
    (shortest x.units).digits ≤ 2 * Nat.pow 10 15 ∧
      x.Spelled (shortest x.units).digits (-(shortest x.units).exponent).toNat := by
  obtain ⟨m, s, hm, hs, hunits⟩ := h
  have hne : x.units ≠ 0 := by
    intro hzero
    rw [hzero] at hneg
    exact absurd hneg (by decide)
  obtain ⟨hhits, hle⟩ := shortest_hits_of_nearest hs hne hunits
  have hdigits := hhits.digits_le_double hm hunits (Int.le_of_lt hneg) hle
  have hexact : (shortest x.units).digits ≤ Nat.pow 2 53 := by
    have hpow : 2 * Nat.pow 10 15 ≤ Nat.pow 2 53 := by decide
    omega
  exact ⟨hdigits, isExact_mul_one hexact, by omega,
    hhits.units_eq.symm.trans (Decimal.units_of_nonpos (Int.le_of_lt hneg))⟩

/-- One that is written without places is spelled by them and the zero behind the point. -/
theorem IsShort.spelled_of_nonneg (h : x.IsShort) (hpos : 0 ≤ (shortest x.units).exponent) :
    (shortest x.units).digits * Nat.pow 10 (shortest x.units).exponent.toNat ≤ Nat.pow 10 15 ∧
      x.Spelled ((shortest x.units).digits * Nat.pow 10 (shortest x.units).exponent.toNat * 10)
        1 := by
  obtain ⟨m, s, hm, hs, hunits⟩ := h
  by_cases hne : x.units = 0
  · rw [hne]
    refine ⟨by decide, isExact_mul_one (by decide), by decide, ?_⟩
    have hzero : 0 * one = 0 * Nat.pow 10 1 := by rw [Nat.zero_mul, Nat.zero_mul]
    show x.units = nearest (0 * one) (Nat.pow 10 1)
    rw [hne, hzero]
    exact (nearest_mul_self (Nat.dvd_zero _) (Nat.pow_pos (by decide))).symm
  · obtain ⟨hhits, -⟩ := shortest_hits_of_nearest hs hne hunits
    have hwhole := hhits.mul_pow_le hm hunits hpos
    obtain ⟨n, hn⟩ : ∃ n,
        (shortest x.units).digits * Nat.pow 10 (shortest x.units).exponent.toNat = n := ⟨_, rfl⟩
    have hvalue := hhits.units_eq.symm.trans (Decimal.units_of_nonneg hpos)
    rw [hn] at hwhole hvalue ⊢
    have hten : n * 10 = 2 * (n * 5) := by omega
    refine ⟨hwhole, ?_, by decide, ?_⟩
    · rw [hten]
      refine isExact_double_mul_one ?_
      have hpow : Nat.pow 10 15 * 5 ≤ Nat.pow 2 53 := by decide
      omega
    · rw [hvalue]
      refine nearest_congr Nat.one_pos (Nat.pow_pos (by decide)) ?_
      show n * one * 10 = n * 10 * one * 1
      ring

end Double
end BotFleet
