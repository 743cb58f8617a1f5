import Mathlib.Data.String.Basic
import BotFleet.Proofs.Text.Utf8

/-
The order of texts by their bytes.

Texts are compared character by character here, and a store compares them byte by byte.  It
comes to the same.  The first byte of a character says how many follow it, and the more
there are the greater are both the code point and that byte.  With equally many, the bytes
are the digits of the code point, six bits in each, so the first one that differs decides.
-/

namespace BotFleet
namespace Utf8

/-! ## The bytes of a code point -/

/-- How many bytes follow the first one. -/
def spare (n : Nat) : Nat :=
  if n ≤ 0x7F then 0 else if n ≤ 0x7FF then 1 else if n ≤ 0xFFFF then 2 else 3

/-- What says in the first byte how many follow it. -/
def mark : Nat → Nat
  | 0 => 0
  | 1 => 0xC0
  | 2 => 0xE0
  | _ => 0xF0

def lead (n : Nat) : Nat := n / 64 ^ spare n + mark (spare n)

/-- The last bytes of a code point. -/
def trail (n : Nat) : Nat → List UInt8
  | 0 => []
  | k + 1 => UInt8.ofNat (n / 64 ^ k % 64 + 0x80) :: trail n k

variable {n m : Nat} {c d : Char} {x y : List UInt8}

theorem encodeChar_eq (c : Char) :
    String.utf8EncodeChar c = UInt8.ofNat (lead c.toNat) :: trail c.toNat (spare c.toNat) := by
  have hrange := codePoint_range c
  obtain ⟨n, hn⟩ : ∃ n, c.toNat = n := ⟨_, rfl⟩
  have hval : c.val.toNat = n := hn
  rw [hn] at hrange ⊢
  unfold String.utf8EncodeChar lead spare
  simp only [hval]
  by_cases h₁ : n ≤ 0x7F
  · simp only [if_pos h₁, trail, mark, Nat.pow_zero, Nat.div_one, Nat.add_zero]
  by_cases h₂ : n ≤ 0x7FF
  · have hlead : n / 64 % 0x20 = n / 64 ^ 1 := by omega
    simp only [if_neg h₁, if_pos h₂, trail, mark, hlead, Nat.pow_zero, Nat.div_one]
  by_cases h₃ : n ≤ 0xFFFF
  · have hlead : n / 4096 % 0x10 = n / 64 ^ 2 := by omega
    simp only [if_neg h₁, if_neg h₂, if_pos h₃, trail, mark, hlead, Nat.pow_zero, Nat.pow_one,
      Nat.div_one]
  · have hlead : n / 262144 % 0x08 = n / 64 ^ 3 := by omega
    simp only [if_neg h₁, if_neg h₂, if_neg h₃, trail, mark, hlead, Nat.pow_zero, Nat.pow_one,
      Nat.reducePow, Nat.div_one]

/-- The first bytes of two code points are in their order, and where they agree the digits
after them are. -/
theorem lead_lt (h : n < m) :
    lead n < lead m ∨ lead n = lead m ∧ spare n = spare m ∧
      n % 64 ^ spare n < m % 64 ^ spare m := by
  unfold lead spare
  split_ifs <;> simp only [mark, Nat.reducePow, true_and] <;> omega

theorem lead_lt_256 (h : n < 0x110000) : lead n < 256 := by
  unfold lead spare
  split_ifs <;> simp only [mark, Nat.reducePow] <;> omega

/-! ## Lists of bytes -/

theorem ofNat_lt_ofNat (h : n < m) (hm : m < 256) : UInt8.ofNat n < UInt8.ofNat m := by
  rw [UInt8.lt_iff_toNat_lt, UInt8.toNat_ofNat', UInt8.toNat_ofNat', Nat.mod_eq_of_lt hm,
    Nat.mod_eq_of_lt (Nat.lt_trans h hm)]
  exact h

/-- Digits are compared from the first one on. -/
theorem trail_lt {k : Nat} (h : n % 64 ^ k < m % 64 ^ k) : trail n k ++ x < trail m k ++ y := by
  induction k with
  | zero => omega
  | succ k ih =>
    rw [Nat.mod_pow_succ, Nat.mod_pow_succ] at h
    rw [trail, trail, List.cons_append, List.cons_append, List.cons_lt_cons_iff]
    rcases Nat.lt_trichotomy (n / 64 ^ k % 64) (m / 64 ^ k % 64) with hlt | heq | hgt
    · exact .inl (ofNat_lt_ofNat (by omega) (by omega))
    · rw [heq] at h ⊢
      exact .inr ⟨rfl, ih (Nat.lt_of_add_lt_add_right h)⟩
    · -- A greater digit outweighs all that follow it.
      have hpos : 0 < 64 ^ k := Nat.pow_pos (by decide)
      have hm : m % 64 ^ k < 64 ^ k := Nat.mod_lt m hpos
      have hgap : 64 ^ k * (m / 64 ^ k % 64 + 1) ≤ 64 ^ k * (n / 64 ^ k % 64) :=
        Nat.mul_le_mul_left _ hgt
      rw [Nat.mul_add, Nat.mul_one] at hgap
      omega

theorem encodeChar_lt (h : c < d) :
    String.utf8EncodeChar c ++ x < String.utf8EncodeChar d ++ y := by
  have hd : d.toNat < 0x110000 := by
    have hrange := codePoint_range d
    omega
  rw [encodeChar_eq, encodeChar_eq, List.cons_append, List.cons_append, List.cons_lt_cons_iff]
  rcases lead_lt (n := c.toNat) (m := d.toNat) h with hlt | ⟨hlead, hspare, htrail⟩
  · exact .inl (ofNat_lt_ofNat hlt (lead_lt_256 hd))
  · rw [hlead, hspare]
    rw [hspare] at htrail
    exact .inr ⟨rfl, trail_lt htrail⟩

theorem encode_lt_of_lt {s t : List Char} (h : s < t) : encode s < encode t := by
  induction h with
  | nil =>
    rw [encode, encode, List.flatMap_cons, encodeChar_eq]
    exact List.Lex.nil
  | rel h => exact encodeChar_lt h
  | cons _ ih => exact List.append_left_lt ih

/-- Texts stand in the order of their bytes. -/
theorem encode_lt_iff {s t : String} : encode s.toList < encode t.toList ↔ s < t := by
  rw [String.lt_iff_toList_lt]
  refine ⟨fun h => ?_, encode_lt_of_lt⟩
  rcases lt_trichotomy s.toList t.toList with hlt | heq | hgt
  · exact hlt
  · rw [heq] at h
    exact absurd h (List.lt_irrefl _)
  · exact absurd h (List.lt_asymm (encode_lt_of_lt hgt))

end Utf8
end BotFleet
