import BotFleet.Proofs.Double.Shortest
import BotFleet.Proofs.Json.Scalar
import BotFleet.Proofs.Text.Numeral

/-
Reading back numbers.

Every number is written in digits that are read back as they are: there is one in front of
the point, none of those is a spare zero, and the point and the exponent stand where they are
looked for.  What the digits are worth is a question of its own.  A whole number of 64 bits
keeps all its digits.  A double is written with few digits, and if it is a short one, neither
they nor their power of ten are rounded when they are read, so the double comes back.
-/

namespace BotFleet
namespace Json

theorem not_blank_of_startsNumber {c : Char} (h : startsNumber c = true) :
    isBlank (some c) = false := by
  rw [Bool.eq_false_iff]
  intro hb
  simp only [isBlank, Bool.or_eq_true, beq_iff_eq, Option.some.injEq] at hb
  rcases hb with ((rfl | rfl) | rfl) | rfl <;> simp [startsNumber] at h

/-! ## Digits -/

theorem spanDigits_of_ends {rest : Source} (hrest : Ends rest) : spanDigits rest = ([], rest) := by
  cases rest with
  | nil => rfl
  | cons u rest => rcases hrest u rfl with rfl | rfl | rfl <;> rfl

/-- Digits are taken as far as they go. -/
theorem spanDigits_append {ds : List Char} {rest : Source} (hd : ∀ c ∈ ds, c.isDigit = true)
    (hrest : spanDigits rest = ([], rest)) :
    spanDigits (Source.ofChars ds ++ rest) = (ds, rest) := by
  induction ds with
  | nil => exact hrest
  | cons c cs ih =>
    have hc := hd c List.mem_cons_self
    have hrec := ih fun d hd' => hd d (List.mem_cons_of_mem _ hd')
    show spanDigits (some c :: (Source.ofChars cs ++ rest)) = _
    rw [spanDigits, if_pos hc, hrec]

theorem digits_append (care : Care) {ds : List Char} {rest : Source} (hne : ds ≠ [])
    (hd : ∀ c ∈ ds, c.isDigit = true) (hrest : spanDigits rest = ([], rest)) :
    digits care (Source.ofChars ds ++ rest) = .ok (ds, rest) := by
  rw [digits, spanDigits_append hd hrest]
  cases ds with
  | nil => exact absurd rfl hne
  | cons c cs => rfl

theorem digits_natural (care : Care) (n : Nat) {rest : Source}
    (hrest : spanDigits rest = ([], rest)) :
    digits care (Source.ofChars (Numeral.natural n) ++ rest) = .ok (Numeral.natural n, rest) :=
  digits_append care Nat.toDigits_ne_nil (fun _ hc => Numeral.isDigit_of_mem_natural hc) hrest

/-! ## The parts of a number -/

theorem exponent_whole (care : Care) (e : Int) {rest : Source} (hrest : Ends rest) :
    exponent care (Source.ofChars (Numeral.whole e) ++ rest) = .ok (e, rest) := by
  have hdigits (n : Nat) := digits_natural care n (spanDigits_of_ends hrest)
  cases e with
  | ofNat n =>
    have hread := hdigits n
    obtain ⟨c, cs, hc, hdigit⟩ := Numeral.natural_eq_cons n
    have hminus : c ≠ '-' := by rintro rfl; cases hdigit
    have hplus : c ≠ '+' := by rintro rfl; cases hdigit
    have hvalue := Numeral.ofDigitChars_natural n
    show exponent care (Source.ofChars (Numeral.natural n) ++ rest) = _
    rw [hc] at hread hvalue ⊢
    rw [exponent.eq_def]
    split
    · rename_i heq
      simp [hminus] at heq
    · rename_i heq
      simp [hplus] at heq
    · rw [hread]
      show Except.ok (_, rest) = _
      rw [hvalue]
      rfl
  | negSucc n =>
    show (digits care (Source.ofChars (Numeral.natural (n + 1)) ++ rest)).map _ = _
    rw [hdigits (n + 1)]
    show Except.ok (_, rest) = _
    rw [Numeral.ofDigitChars_natural]
    rfl

theorem scaling_exponentText (care : Care) (e : Option Int) {rest : Source} (hrest : Ends rest) :
    scaling care (Source.ofChars (Number.exponentText e) ++ rest) = .ok (e, rest) := by
  cases e with
  | none =>
    cases rest with
    | nil => rfl
    | cons u rest => rcases hrest u rfl with rfl | rfl | rfl <;> rfl
  | some e =>
    show (exponent care (Source.ofChars (Numeral.whole e) ++ rest)).map _ = _
    rw [exponent_whole care e hrest]
    rfl

/-- Neither digits nor a point go on in front of an exponent. -/
theorem exponentText_stops (care : Care) (e : Option Int) {rest : Source} (hrest : Ends rest) :
    spanDigits (Source.ofChars (Number.exponentText e) ++ rest) =
        ([], Source.ofChars (Number.exponentText e) ++ rest) ∧
      places care (Source.ofChars (Number.exponentText e) ++ rest) =
        .ok ([], Source.ofChars (Number.exponentText e) ++ rest) := by
  cases e with
  | some e => exact ⟨rfl, rfl⟩
  | none =>
    refine ⟨spanDigits_of_ends hrest, ?_⟩
    cases rest with
    | nil => rfl
    | cons u rest => rcases hrest u rfl with rfl | rfl | rfl <;> rfl

namespace Number

/-- The digits of a number as they may be written. -/
structure Readable (n : Number) : Prop where
  nonempty : n.whole ≠ []
  whole_digits : ∀ c ∈ n.whole, c.isDigit = true
  places_digits : ∀ c ∈ n.places, c.isDigit = true
  spare : hasSpareZero n.whole = false

/-- The text behind the digits in front of the point. -/
def tail (n : Number) : List Char := placesText n.places ++ exponentText n.exponent

variable {n : Number} {rest : Source}

theorem text_eq (n : Number) : n.text = signText n.negative ++ (n.whole ++ n.tail) := by
  rw [text, tail]
  simp only [List.append_assoc]

theorem places_tail (care : Care) (h : n.Readable) (hrest : Ends rest) :
    spanDigits (Source.ofChars n.tail ++ rest) = ([], Source.ofChars n.tail ++ rest) ∧
      Json.places care (Source.ofChars n.tail ++ rest) =
        .ok (n.places, Source.ofChars (exponentText n.exponent) ++ rest) := by
  obtain ⟨hspan, hplaces⟩ := exponentText_stops care n.exponent hrest
  rw [tail, placesText]
  cases hcase : n.places with
  | nil => exact ⟨hspan, hplaces⟩
  | cons c cs =>
    refine ⟨rfl, ?_⟩
    have hdigits : ∀ d ∈ c :: cs, d.isDigit = true := hcase ▸ h.places_digits
    have hread := digits_append care (List.cons_ne_nil c cs) hdigits hspan
    rw [Source.ofChars_append, List.append_assoc]
    exact hread

theorem magnitude_digits (care : Care) (h : n.Readable) (hrest : Ends rest) :
    magnitude care n.negative (Source.ofChars (n.whole ++ n.tail) ++ rest) = .ok (n, rest) := by
  obtain ⟨hspan, hplaces⟩ := places_tail care h hrest
  have hwhole := digits_append care h.nonempty h.whole_digits hspan
  rw [Source.ofChars_append, List.append_assoc, magnitude, hwhole]
  simp only [h.spare, hplaces, scaling_exponentText care n.exponent hrest, Bool.false_eq_true,
    if_false]

theorem exists_whole_eq_cons (h : n.Readable) :
    ∃ c cs, n.whole = c :: cs ∧ c.isDigit = true := by
  cases hwhole : n.whole with
  | nil => exact absurd hwhole h.nonempty
  | cons c cs => exact ⟨c, cs, rfl, h.whole_digits c (hwhole ▸ List.mem_cons_self)⟩

/-- A number is read back from its text, digit by digit. -/
theorem signedMagnitude_text (care : Care) (h : n.Readable) (hrest : Ends rest) :
    signedMagnitude care (Source.ofChars n.text ++ rest) = .ok (n, rest) := by
  have hread := magnitude_digits care h hrest
  rw [text_eq]
  cases hnegative : n.negative with
  | true =>
    rw [hnegative] at hread
    exact hread
  | false =>
    obtain ⟨c, cs, hc, hdigit⟩ := exists_whole_eq_cons h
    have hminus : c ≠ '-' := by rintro rfl; cases hdigit
    rw [hnegative, hc] at hread
    rw [hc, signText, if_neg (by decide), List.nil_append]
    show signedMagnitude care (some c :: _) = _
    rw [signedMagnitude.eq_def]
    split
    · rename_i heq
      simp [hminus] at heq
    · exact hread

theorem text_eq_cons (h : n.Readable) : ∃ c cs, n.text = c :: cs ∧ startsNumber c = true := by
  obtain ⟨c, cs, hc, hdigit⟩ := exists_whole_eq_cons h
  rw [text_eq, hc]
  cases n.negative with
  | true => exact ⟨'-', _, rfl, by decide⟩
  | false => exact ⟨c, _, rfl, by rw [startsNumber, hdigit, Bool.or_true]⟩

theorem number_text (care : Care) (h : n.Readable) (hrange : n.isInRange = true)
    (hrest : Ends rest) : number care (Source.ofChars n.text ++ rest) = .ok (n, rest) := by
  rw [number, signedMagnitude_text care h hrest]
  simp only [hrange, Bool.not_true, Bool.and_false, Bool.false_eq_true, if_false]

end Number

/-! ## What digits are worth -/

theorem appendDigits_eq {ds : List Char} {acc : Nat}
    (h : Nat.ofDigitChars 10 ds acc < 18446744073709551616) :
    appendDigits acc ds = (Nat.ofDigitChars 10 ds acc, []) := by
  induction ds generalizing acc with
  | nil => rfl
  | cons c cs ih =>
    rw [Nat.ofDigitChars_cons, Nat.mul_comm] at h ⊢
    have hnext := Numeral.le_ofDigitChars cs (acc * 10 + (c.toNat - '0'.toNat))
    simp only [appendDigits]
    rw [if_pos (by omega), ih h]

/-- Digits that 64 bits hold are all kept. -/
theorem Number.significand_eq {n : Number}
    (h : Nat.ofDigitChars 10 (n.whole ++ n.places) 0 < 18446744073709551616) :
    n.significand =
      (Nat.ofDigitChars 10 (n.whole ++ n.places) 0, n.exponent.getD 0 - n.places.length) := by
  rw [Nat.ofDigitChars_append] at h ⊢
  have hfront := Numeral.le_ofDigitChars n.places (Nat.ofDigitChars 10 n.whole 0)
  have hwhole : appendDigits 0 n.whole = (Nat.ofDigitChars 10 n.whole 0, []) :=
    appendDigits_eq (by omega)
  have hplaces := appendDigits_eq h
  rw [significand]
  simp only [hwhole, hplaces, List.length_nil]
  refine Prod.ext rfl ?_
  show (0 : Int) + 0 - n.places.length + n.exponent.getD 0 = _
  omega

/-! ## Whole numbers -/

/-- A whole number as it is read. -/
def Number.ofWhole (n : Int) : Number := ⟨decide (n < 0), Numeral.natural n.natAbs, [], none⟩

theorem hasSpareZero_natural (n : Nat) : hasSpareZero (Numeral.natural n) = false := by
  unfold hasSpareZero
  split
  · rename_i c cs heq
    cases Numeral.natural_head_zero heq
  · rfl

theorem Number.readable_ofWhole (n : Int) : (ofWhole n).Readable where
  nonempty := Nat.toDigits_ne_nil
  whole_digits := fun _ hc => Numeral.isDigit_of_mem_natural hc
  places_digits := List.forall_mem_nil _
  spare := hasSpareZero_natural _

theorem Number.text_ofWhole (n : Int) : (ofWhole n).text = Numeral.whole n := by
  rw [text_eq]
  cases n with
  | ofNat n =>
    have hnegative : (ofWhole (Int.ofNat n)).negative = false :=
      decide_eq_false (Int.not_lt.mpr (Int.natCast_nonneg n))
    rw [hnegative]
    exact List.append_nil _
  | negSucc n =>
    have hnegative : (ofWhole (Int.negSucc n)).negative = true :=
      decide_eq_true (Int.negSucc_lt_zero n)
    rw [hnegative]
    exact congrArg ('-' :: ·) (List.append_nil _)

/-- The whole numbers that 64 bits hold, with or without a sign. -/
def FitsWord (n : Int) : Prop := -9223372036854775808 ≤ n ∧ n < 18446744073709551616

theorem Number.isInRange_ofWhole {n : Int} (h : FitsWord n) :
    (Number.ofWhole n).isInRange = true := by
  obtain ⟨hlow, hhigh⟩ := h
  have hdigits : Nat.ofDigitChars 10 ((ofWhole n).whole ++ (ofWhole n).places) 0 = n.natAbs := by
    rw [ofWhole, List.append_nil, Numeral.ofDigitChars_natural]
  have hsignificand := significand_eq (n := ofWhole n) (by rw [hdigits]; omega)
  rw [hdigits] at hsignificand
  rw [isInRange, value?, hsignificand]
  exact Double.isSome_ofParts? (by omega)

theorem Number.toInt?_ofWhole {n : Int} (h : FitsWord n) : (Number.ofWhole n).toInt? = some n := by
  obtain ⟨hlow, hhigh⟩ := h
  have hdigits := Numeral.ofDigitChars_natural n.natAbs
  rw [Number.toInt?, Number.ofWhole]
  simp only [List.isEmpty_nil, Option.isNone_none, Bool.and_self, if_true, hdigits]
  by_cases hn : n < 0
  · rw [decide_eq_true hn, if_pos rfl, if_pos (by simp; omega)]
    exact congrArg some (by omega)
  · rw [decide_eq_false hn, if_neg (by decide), if_pos (by omega)]
    exact congrArg some (by omega)

theorem number_whole (care : Care) {n : Int} (h : FitsWord n) {rest : Source}
    (hrest : Ends rest) :
    number care (Source.ofChars (Numeral.whole n) ++ rest) = .ok (Number.ofWhole n, rest) := by
  rw [← Number.text_ofWhole]
  exact Number.number_text care (Number.readable_ofWhole n) (Number.isInRange_ofWhole h) hrest

theorem whole_eq_cons (n : Int) :
    ∃ c cs, Numeral.whole n = c :: cs ∧ startsNumber c = true :=
  Number.text_ofWhole n ▸ Number.text_eq_cons (Number.readable_ofWhole n)

/-! ## Doubles -/

namespace Number

open Double (Decimal)

variable {d : Decimal} {negative : Bool}

theorem hasSpareZero_cons {c : Char} (h : c ≠ '0') (cs : List Char) :
    hasSpareZero (c :: cs) = false := by
  unfold hasSpareZero
  split
  · rename_i heq
    exact absurd (List.cons.inj heq).1 h
  · rfl

theorem isDigit_of_mem_zeros {k : Nat} {c : Char} (h : c ∈ zeros k) : c.isDigit = true := by
  rw [List.eq_of_mem_replicate h]
  rfl

/-- The digits of a number, with zeros behind them or cut off after the first. -/
theorem spare_natural {k : Nat} {ds : List Char} (h : k = 0 → ds = []) :
    hasSpareZero (Numeral.natural k ++ ds) = false := by
  by_cases hk : k = 0
  · rw [h hk, List.append_nil]
    exact hasSpareZero_natural k
  · obtain ⟨c, cs, hc, -⟩ := Numeral.natural_eq_cons k
    have hzero : c ≠ '0' := by
      rintro rfl
      have hvalue := Numeral.ofDigitChars_natural k
      rw [hc, Numeral.natural_head_zero hc] at hvalue
      exact hk hvalue.symm
    rw [hc]
    exact hasSpareZero_cons hzero _

theorem spare_take_natural (k n : Nat) : hasSpareZero ((Numeral.natural k).take n) = false := by
  have hspare := hasSpareZero_natural k
  rw [← List.take_append_drop n (Numeral.natural k)] at hspare
  unfold hasSpareZero
  split
  · rename_i heq
    rw [heq] at hspare
    exact hspare
  · rfl

theorem readable_ofDecimal (negative : Bool) (h : d.digits = 0 → d.exponent = 0) :
    (ofDecimal negative d).Readable := by
  have hdigits : ∀ c ∈ Numeral.natural d.digits, c.isDigit = true :=
    fun _ => Numeral.isDigit_of_mem_natural
  have hlength : (Numeral.natural d.digits).length ≠ 0 :=
    fun hzero => Nat.toDigits_ne_nil (List.eq_nil_of_length_eq_zero hzero)
  have htake {n : Nat} (hn : n ≠ 0) : (Numeral.natural d.digits).take n ≠ [] := by
    rw [Ne, List.take_eq_nil_iff, not_or]
    exact ⟨hn, Nat.toDigits_ne_nil⟩
  rw [ofDecimal]
  split
  · rename_i hwhole
    refine ⟨List.append_ne_nil_of_left_ne_nil Nat.toDigits_ne_nil _, ?_, ?_, ?_⟩
    · exact fun c hc => (List.mem_append.mp hc).elim (hdigits c) isDigit_of_mem_zeros
    · exact fun c hc => List.mem_singleton.mp hc ▸ rfl
    · refine spare_natural fun hzero => ?_
      rw [h hzero]
      rfl
  · split
    · rename_i hpoint
      refine ⟨htake ?_, ?_, ?_, spare_take_natural _ _⟩
      · simp only [Bool.and_eq_true, decide_eq_true_eq] at hpoint
        omega
      · exact fun c hc => hdigits c (List.mem_of_mem_take hc)
      · exact fun c hc => hdigits c (List.mem_of_mem_drop hc)
    · split
      · refine ⟨List.cons_ne_nil _ _, fun c hc => List.mem_singleton.mp hc ▸ rfl, ?_, rfl⟩
        exact fun c hc => (List.mem_append.mp hc).elim isDigit_of_mem_zeros (hdigits c)
      · refine ⟨htake Nat.one_ne_zero, ?_, ?_, spare_take_natural _ _⟩
        · exact fun c hc => hdigits c (List.mem_of_mem_take hc)
        · exact fun c hc => hdigits c (List.mem_of_mem_drop hc)

theorem negative_ofDecimal (negative : Bool) (d : Decimal) :
    (ofDecimal negative d).negative = negative := by
  simp only [ofDecimal, apply_ite Number.negative, ite_self]

theorem ofDigitChars_zeros_append (k n : Nat) :
    Nat.ofDigitChars 10 (zeros k ++ Numeral.natural n) 0 = n := by
  rw [zeros, Nat.ofDigitChars_append, Nat.ofDigitChars_replicate_zero, Nat.mul_zero,
    Numeral.ofDigitChars_natural]

/-- With places, the digits of the decimal are all that counts. -/
theorem significand_ofDecimal_of_neg (hneg : d.exponent < 0) (h : d.digits ≤ 2 * Nat.pow 10 15) :
    (ofDecimal negative d).significand = (d.digits, d.exponent) := by
  have hlength : (Numeral.natural d.digits).length ≤ 16 := by
    have hlt : 2 * Nat.pow 10 15 < Nat.pow 10 16 := by decide
    exact (Nat.length_toDigits_le_iff (by decide) (by decide)).mpr (Nat.lt_of_le_of_lt h hlt)
  have hpos : 0 < (Numeral.natural d.digits).length := List.length_pos_iff.mpr Nat.toDigits_ne_nil
  have hword : 2 * Nat.pow 10 15 < 18446744073709551616 := by decide
  have hread {n : Number} (hdigits : Nat.ofDigitChars 10 (n.whole ++ n.places) 0 = d.digits)
      (hplaces : n.exponent.getD 0 - n.places.length = d.exponent) :
      n.significand = (d.digits, d.exponent) := by
    rw [significand_eq (by omega), hdigits, hplaces]
  have hsplit (k : Nat) : Nat.ofDigitChars 10
      ((Numeral.natural d.digits).take k ++ (Numeral.natural d.digits).drop k) 0 = d.digits := by
    rw [List.take_append_drop, Numeral.ofDigitChars_natural]
  rw [ofDecimal]
  split
  · rename_i hwhole
    simp only [Bool.and_eq_true, decide_eq_true_eq] at hwhole
    omega
  · split
    · rename_i hpoint
      simp only [Bool.and_eq_true, decide_eq_true_eq] at hpoint
      refine hread (hsplit _) ?_
      simp only [Option.getD_none, List.length_drop]
      omega
    · split
      · rename_i hpoint
        simp only [Bool.and_eq_true, decide_eq_true_eq] at hpoint
        refine hread (ofDigitChars_zeros_append _ _) ?_
        simp only [Option.getD_none, List.length_append, zeros, List.length_replicate]
        omega
      · refine hread (hsplit 1) ?_
        simp only [Option.getD_some, List.length_drop]
        omega

/-- A whole number of few digits leaves the point where it can be written. -/
theorem length_add_le (hzero : d.digits = 0 → d.exponent = 0)
    (h : d.digits * Nat.pow 10 d.exponent.toNat ≤ Nat.pow 10 15) :
    (Numeral.natural d.digits).length + d.exponent.toNat ≤ 16 := by
  by_cases hne : d.digits = 0
  · rw [hne, hzero hne]
    decide
  · have hpow : Nat.pow 10 d.exponent.toNat ≤ Nat.pow 10 15 :=
      Nat.le_trans (Nat.le_mul_of_pos_left _ (Nat.pos_of_ne_zero hne)) h
    have hexponent : d.exponent.toNat ≤ 15 := (Nat.pow_le_pow_iff_right (by decide)).mp hpow
    have hsplit : Nat.pow 10 (16 - d.exponent.toNat) * Nat.pow 10 d.exponent.toNat =
        Nat.pow 10 16 := by
      rw [Nat.pow_eq, Nat.pow_eq, ← Nat.pow_add, Nat.sub_add_cancel (by omega)]
    have hdigits : d.digits < Nat.pow 10 (16 - d.exponent.toNat) := by
      refine Nat.lt_of_mul_lt_mul_right (a := Nat.pow 10 d.exponent.toNat) ?_
      rw [hsplit]
      exact Nat.lt_of_le_of_lt h (by decide)
    have hlength := (Nat.length_toDigits_le_iff (b := 10) (by decide) (by omega)).mpr hdigits
    rw [Numeral.natural]
    omega

/-- Without places, the zeros in front of the point and the one behind it count too. -/
theorem significand_ofDecimal_of_nonneg (hpos : 0 ≤ d.exponent)
    (hzero : d.digits = 0 → d.exponent = 0)
    (h : d.digits * Nat.pow 10 d.exponent.toNat ≤ Nat.pow 10 15) :
    (ofDecimal negative d).significand =
      (d.digits * Nat.pow 10 d.exponent.toNat * 10, -1) := by
  have hlength := length_add_le hzero h
  have hword : Nat.pow 10 15 * 10 < 18446744073709551616 := by decide
  have hvalue : Nat.ofDigitChars 10
      ((Numeral.natural d.digits ++ zeros d.exponent.toNat) ++ ['0']) 0 =
        d.digits * Nat.pow 10 d.exponent.toNat * 10 := by
    rw [Nat.ofDigitChars_append, Nat.ofDigitChars_append, Numeral.ofDigitChars_natural, zeros,
      Nat.ofDigitChars_replicate_zero, Nat.mul_comm d.digits, Nat.mul_comm _ 10]
    rfl
  have hform : ofDecimal negative d =
      ⟨negative, Numeral.natural d.digits ++ zeros d.exponent.toNat, ['0'], none⟩ := by
    rw [ofDecimal, if_pos]
    simp only [Bool.and_eq_true, decide_eq_true_eq]
    omega
  rw [hform, significand_eq (by rw [hvalue]; omega), hvalue]
  rfl

/-- Every double is written in digits that can be read. -/
theorem readable_ofDouble (x : Double) : (ofDouble x).Readable :=
  readable_ofDecimal x.negative (Decimal.exponent_shortest x.exact)

/-- A short double is what its text is read as. -/
theorem value?_ofDouble {x : Double} (h : x.IsShort) : (ofDouble x).value? = some x := by
  rw [value?, ofDouble, negative_ofDecimal]
  by_cases hneg : (Decimal.shortest x.units).exponent < 0
  · obtain ⟨hdigits, hspelled⟩ := h.spelled_of_neg hneg
    have hexponent : -((-(Decimal.shortest x.units).exponent).toNat : Int) =
        (Decimal.shortest x.units).exponent := by omega
    rw [significand_ofDecimal_of_neg hneg hdigits]
    have hread := hspelled.ofParts?
    rw [hexponent] at hread
    exact hread
  · obtain ⟨hdigits, hspelled⟩ := h.spelled_of_nonneg (by omega)
    rw [significand_ofDecimal_of_nonneg (by omega) (Decimal.exponent_shortest x.exact) hdigits]
    exact hspelled.ofParts?

end Number

theorem number_double (care : Care) {x : Double} (h : x.IsShort) {rest : Source}
    (hrest : Ends rest) :
    number care (Source.ofChars (Number.ofDouble x).text ++ rest) =
      .ok (Number.ofDouble x, rest) := by
  have hrange : (Number.ofDouble x).isInRange = true := by
    rw [Number.isInRange, Number.value?_ofDouble h]
    rfl
  exact Number.number_text care (Number.readable_ofDouble x) hrange hrest

end Json
end BotFleet
