import BotFleet.Text.Numeral

/-
Reading back the digits of a number.

The shortest form of a number has at least one digit and no zero that stands for
nothing, and the digits add up to the number on the way through, never beyond it.
So a number that lies in a range is read back from its shortest form by the reader
of that range.
-/

namespace BotFleet
namespace Numeral

theorem isDigit_of_mem_natural {n : Nat} {c : Char} (h : c ∈ natural n) : c.isDigit = true :=
  Nat.isDigit_of_mem_toDigits (by decide) (by decide) h

/-- A whole number is written in digits, after a minus if it is negative. -/
theorem isDigit_or_eq_minus_of_mem_whole {n : Int} {c : Char} (h : c ∈ whole n) :
    c.isDigit = true ∨ c = '-' := by
  cases n with
  | ofNat n => exact .inl (isDigit_of_mem_natural h)
  | negSucc n =>
    rw [whole, List.mem_cons] at h
    exact h.symm.imp_left isDigit_of_mem_natural

theorem not_mem_ofInt {n : Int} {c : Char} (hdigit : c.isDigit = false) (hminus : c ≠ '-') :
    c ∉ (ofInt n).toList := by
  rw [ofInt, String.toList_ofList]
  intro h
  rcases isDigit_or_eq_minus_of_mem_whole h with hc | hc
  · rw [hdigit] at hc
    exact absurd hc Bool.false_ne_true
  · exact hminus hc

theorem ofDigitChars_natural (n : Nat) : Nat.ofDigitChars 10 (natural n) 0 = n :=
  Nat.ofDigitChars_ten_toDigits

theorem natural_eq_cons (n : Nat) : ∃ c cs, natural n = c :: cs ∧ c.isDigit = true := by
  cases h : natural n with
  | nil => exact absurd h Nat.toDigits_ne_nil
  | cons c cs => exact ⟨c, cs, rfl, isDigit_of_mem_natural (h ▸ List.mem_cons_self)⟩

theorem ofInt_ne_empty (n : Int) : ofInt n ≠ "" := by
  intro h
  have hwhole : whole n = [] := by
    have hlist := congrArg String.toList h
    rwa [ofInt, String.toList_ofList] at hlist
  cases n with
  | ofNat n => exact Nat.toDigits_ne_nil hwhole
  | negSucc n => cases hwhole

/-- Only the number zero begins with a zero. -/
theorem natural_head_zero {n : Nat} {cs : List Char} (h : natural n = '0' :: cs) : cs = [] := by
  induction n using Nat.strongRecOn generalizing cs with
  | ind n ih =>
    by_cases hn : n < 10
    · rw [natural, Nat.toDigits_of_lt_base hn] at h
      exact (List.cons.inj h).2.symm
    · have hstep := Nat.toDigits_of_base_le (b := 10) (by decide) (Nat.not_lt.mp hn)
      rw [natural, hstep] at h
      cases hq : Nat.toDigits 10 (n / 10) with
      | nil => exact absurd hq Nat.toDigits_ne_nil
      | cons q qs =>
        rw [hq] at h
        obtain ⟨rfl, -⟩ := List.cons.inj h
        have hqs := ih (n / 10) (by omega) hq
        subst hqs
        have hzero : Nat.ofDigitChars 10 (natural (n / 10)) 0 = 0 := by
          rw [natural, hq]
          rfl
        rw [ofDigitChars_natural] at hzero
        omega

theorem le_ofDigitChars (ds : List Char) (acc : Nat) : acc ≤ Nat.ofDigitChars 10 ds acc := by
  rw [Nat.ofDigitChars_eq_ofDigitChars_zero]
  have hpos : 1 ≤ 10 ^ ds.length := Nat.one_le_pow _ _ (by decide)
  have hmul := Nat.mul_le_mul_right acc hpos
  omega

theorem digitsWithin_eq_ok {limit : Nat} {excess : Fault} {ds : List Char} {acc : Nat}
    (hd : ∀ c ∈ ds, c.isDigit = true) (hle : Nat.ofDigitChars 10 ds acc ≤ limit) :
    digitsWithin limit excess acc ds = .ok (Nat.ofDigitChars 10 ds acc) := by
  induction ds generalizing acc with
  | nil => rfl
  | cons c cs ih =>
    rw [Nat.ofDigitChars_cons, Nat.mul_comm] at hle ⊢
    have hnext := le_ofDigitChars cs (acc * 10 + (c.toNat - '0'.toNat))
    simp only [digitsWithin, hd c List.mem_cons_self, if_true]
    rw [if_neg (by omega)]
    exact ih (fun d hd' => hd d (List.mem_cons_of_mem _ hd')) hle

theorem digitsWithin_natural {limit : Nat} {excess : Fault} {n : Nat} (h : n ≤ limit) :
    digitsWithin limit excess 0 (natural n) = .ok n := by
  have hd : ∀ c ∈ natural n, c.isDigit = true := fun c hc => isDigit_of_mem_natural hc
  rw [digitsWithin_eq_ok hd (by rw [ofDigitChars_natural]; exact h), ofDigitChars_natural]

theorem read_natural {lo hi : Int} {n : Nat} (h : (n : Int) ≤ hi) :
    read lo hi (natural n) = .ok n := by
  obtain ⟨c, cs, hc, hdigit⟩ := natural_eq_cons n
  have hplus : c ≠ '+' := by rintro rfl; simp at hdigit
  have hminus : c ≠ '-' := by rintro rfl; simp at hdigit
  have hread : read lo hi (natural n) =
      (digitsWithin hi.toNat .tooLarge 0 (natural n)).map Int.ofNat := by
    rw [hc, read.eq_def]
    split <;> simp_all
  rw [hread, digitsWithin_natural (by omega)]
  rfl

/-- A zero in front of a numeral does not count. -/
theorem read_zero_cons {lo hi : Int} {n : Nat} (h : (n : Int) ≤ hi) :
    read lo hi ('0' :: natural n) = .ok n := by
  have hd : ∀ c ∈ '0' :: natural n, c.isDigit = true := by
    intro c hc
    rcases List.mem_cons.mp hc with rfl | hc
    · rfl
    · exact isDigit_of_mem_natural hc
  have hvalue : Nat.ofDigitChars 10 ('0' :: natural n) 0 = n := by
    rw [Nat.ofDigitChars_cons]
    exact ofDigitChars_natural n
  have hread : read lo hi ('0' :: natural n) =
      (digitsWithin hi.toNat .tooLarge 0 ('0' :: natural n)).map Int.ofNat := rfl
  rw [hread, digitsWithin_eq_ok hd (by rw [hvalue]; omega), hvalue]
  rfl

theorem read_negative {lo hi : Int} {n : Nat} (h : lo ≤ Int.negSucc n) :
    read lo hi ('-' :: natural (n + 1)) = .ok (Int.negSucc n) := by
  obtain ⟨c, cs, hc, hdigit⟩ := natural_eq_cons (n + 1)
  have hlo : lo < 0 := by omega
  have hread : read lo hi ('-' :: natural (n + 1)) =
      (digitsWithin (-lo).toNat .tooSmall 0 (natural (n + 1))).map fun k => -Int.ofNat k := by
    rw [hc, read.eq_def]
    simp [hlo]
  rw [hread, digitsWithin_natural (by omega)]
  rfl

theorem read_whole {lo hi n : Int} (hlo : lo ≤ n) (hhi : n ≤ hi) : read lo hi (whole n) = .ok n := by
  cases n with
  | ofNat n => exact read_natural hhi
  | negSucc n => exact read_negative hlo

theorem read?_whole {lo hi : Int} (a : Ranged lo hi) : read? lo hi (whole a.val) = some a := by
  rw [read?, read_whole a.property.1 a.property.2]
  exact Ranged.ofInt?_val a

/-! ## What is read at all -/

/-- The text is a number in decimal digits, one at least. -/
structure Digits (n : Nat) (s : List Char) : Prop where
  nonempty : s ≠ []
  digits : ∀ c ∈ s, c.isDigit = true
  value : Nat.ofDigitChars 10 s 0 = n

/-- The text is a number in decimal digits, with a plus sign in front of them or without. -/
def Decimal (n : Nat) (s : List Char) : Prop := Digits n s ∨ ∃ ds, s = '+' :: ds ∧ Digits n ds

theorem digits_of_digitsWithin {limit : Nat} {excess : Fault} {ds : List Char} {acc n : Nat}
    (h : digitsWithin limit excess acc ds = .ok n) :
    (∀ c ∈ ds, c.isDigit = true) ∧ Nat.ofDigitChars 10 ds acc = n := by
  induction ds generalizing acc with
  | nil =>
    cases h
    exact ⟨nofun, rfl⟩
  | cons c cs ih =>
    rw [digitsWithin] at h
    by_cases hc : c.isDigit = true
    · rw [if_pos hc] at h
      dsimp only at h
      split at h
      · cases h
      · obtain ⟨hcs, hvalue⟩ := ih h
        rw [Nat.ofDigitChars_cons, Nat.mul_comm]
        exact ⟨List.forall_mem_cons.mpr ⟨hc, hcs⟩, hvalue⟩
    · rw [if_neg hc] at h
      cases h

theorem digitsWithin_eq_ok_iff {limit : Nat} {excess : Fault} {ds : List Char} {n : Nat} :
    digitsWithin limit excess 0 ds = .ok n ↔
      (∀ c ∈ ds, c.isDigit = true) ∧ Nat.ofDigitChars 10 ds 0 = n ∧ n ≤ limit := by
  constructor
  · intro h
    obtain ⟨hd, hvalue⟩ := digits_of_digitsWithin h
    exact ⟨hd, hvalue, digitsWithin_le (Nat.zero_le limit) h⟩
  · rintro ⟨hd, rfl, hle⟩
    exact digitsWithin_eq_ok hd hle

theorem read_plus {lo hi : Int} {ds : List Char} (h : ds ≠ []) :
    read lo hi ('+' :: ds) = (digitsWithin hi.toNat .tooLarge 0 ds).map Int.ofNat := by
  cases ds with
  | nil => exact absurd rfl h
  | cons c cs => rfl

theorem read_unsigned {lo hi : Int} {c : Char} {cs : List Char} (hplus : c ≠ '+')
    (hminus : c ≠ '-') :
    read lo hi (c :: cs) = (digitsWithin hi.toNat .tooLarge 0 (c :: cs)).map Int.ofNat := by
  rw [read.eq_def]
  split <;> simp_all

theorem map_digitsWithin_eq_ok_iff {hi n : Int} {ds : List Char} (hhi : 0 ≤ hi) (h : ds ≠ []) :
    (digitsWithin hi.toNat .tooLarge 0 ds).map Int.ofNat = .ok n ↔
      ∃ k : Nat, n = k ∧ n ≤ hi ∧ Digits k ds := by
  constructor
  · intro hread
    cases hds : digitsWithin hi.toNat .tooLarge 0 ds with
    | error f =>
      rw [hds] at hread
      cases hread
    | ok k =>
      rw [hds] at hread
      cases hread
      obtain ⟨hd, hvalue, hle⟩ := digitsWithin_eq_ok_iff.mp hds
      refine ⟨k, rfl, ?_, h, hd, hvalue⟩
      show (k : Int) ≤ hi
      omega
  · rintro ⟨k, rfl, hle, hdigits⟩
    rw [digitsWithin_eq_ok_iff.mpr ⟨hdigits.digits, hdigits.value, by omega⟩]
    rfl

/-- What is read for a range that begins with zero is in decimal digits. -/
theorem read_zero_eq_ok_iff {hi n : Int} {s : List Char} (hhi : 0 ≤ hi) :
    read 0 hi s = .ok n ↔ ∃ k : Nat, n = k ∧ n ≤ hi ∧ Decimal k s := by
  -- A text that begins with a digit has no sign, and a sign is no digit.
  have hsign {k : Nat} {c : Char} {cs : List Char} (hc : c.isDigit = false) :
      ¬Digits k (c :: cs) := by
    intro h
    rw [h.digits c List.mem_cons_self] at hc
    cases hc
  cases s with
  | nil =>
    refine iff_of_false nofun ?_
    rintro ⟨k, -, -, hdigits | ⟨ds, hds, -⟩⟩
    · exact hdigits.nonempty rfl
    · cases hds
  | cons c cs =>
    by_cases hplus : c = '+'
    · subst hplus
      have hdecimal (k : Nat) : Decimal k ('+' :: cs) ↔ Digits k cs := by
        simp [Decimal, hsign (c := '+') rfl]
      simp only [hdecimal]
      by_cases hcs : cs = []
      · subst hcs
        refine iff_of_false nofun ?_
        rintro ⟨k, -, -, hdigits⟩
        exact hdigits.nonempty rfl
      · rw [read_plus hcs, map_digitsWithin_eq_ok_iff hhi hcs]
    · have hdecimal (k : Nat) : Decimal k (c :: cs) ↔ Digits k (c :: cs) := by
        simp [Decimal, hplus]
      simp only [hdecimal]
      by_cases hminus : c = '-'
      · subst hminus
        refine iff_of_false ?_ fun ⟨k, _, _, hdigits⟩ => hsign rfl hdigits
        cases cs <;> nofun
      · rw [read_unsigned hplus hminus, map_digitsWithin_eq_ok_iff hhi (List.cons_ne_nil _ _)]

theorem decimal_ofInt {n : Int} (h : 0 ≤ n) : Decimal n.toNat (ofInt n).toList := by
  obtain ⟨k, rfl⟩ := Int.eq_ofNat_of_zero_le h
  rw [ofInt, String.toList_ofList]
  exact .inl ⟨Nat.toDigits_ne_nil, fun _ => isDigit_of_mem_natural, ofDigitChars_natural k⟩

end Numeral
end BotFleet
