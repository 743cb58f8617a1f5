import BotFleet.Crypto.Base64
import Mathlib.Data.List.Nodup

/-
Reading back what was written in sixty-four letters.

Every number below sixty-four has a letter of its own, so the letters of a group
give back the number that the bytes of the group made up, and that number gives
back the bytes.
-/

namespace BotFleet
namespace Base64

variable {a : Alphabet}

theorem Alphabet.letter_eq {n : Nat} (h : n < a.letters.length) : a.letter n = a.letters[n] := by
  simp [letter, h]

theorem Alphabet.value?_letter {n : Nat} (h : n < 64) : a.value? (a.letter n) = some n := by
  have hn : n < a.letters.length := by rw [a.size]; exact h
  rw [value?, letter_eq hn, List.idxOf?_eq_some_iff]
  refine ⟨hn, rfl, ?_⟩
  intro j hj he
  have hjn := (List.Nodup.getElem_inj_iff a.distinct).mp he
  omega

theorem Alphabet.letter_mem {n : Nat} (h : n < 64) : a.letter n ∈ a.letters := by
  have hn : n < a.letters.length := by rw [a.size]; exact h
  rw [letter_eq hn]
  exact List.getElem_mem hn

theorem ofNat_eq {x : UInt8} {n : Nat} (h : n = x.toNat) : UInt8.ofNat n = x := by
  rw [h, UInt8.ofNat_toNat]

theorem decode?_encode (bytes : List UInt8) : decode? a (encode a bytes) = some bytes := by
  induction bytes using encode.induct with
  | case1 => rfl
  | case2 x =>
    have hx := x.toNat_lt
    have h₁ : x.toNat * 16 / 64 < 64 := by omega
    have h₂ : x.toNat * 16 % 64 < 64 := by omega
    simp only [encode, decode?, Alphabet.value?_letter h₁, Alphabet.value?_letter h₂,
      Option.bind_eq_bind, Option.bind_some]
    rw [if_pos (by omega), ofNat_eq (x := x) (by omega)]
  | case3 x y =>
    have hx := x.toNat_lt
    have hy := y.toNat_lt
    have h₁ : (x.toNat * 1024 + y.toNat * 4) / 4096 < 64 := by omega
    have h₂ : (x.toNat * 1024 + y.toNat * 4) / 64 % 64 < 64 := by omega
    have h₃ : (x.toNat * 1024 + y.toNat * 4) % 64 < 64 := by omega
    simp only [encode, decode?, Alphabet.value?_letter h₁, Alphabet.value?_letter h₂,
      Alphabet.value?_letter h₃, Option.bind_eq_bind, Option.bind_some]
    rw [if_pos (by omega), ofNat_eq (x := x) (by omega), ofNat_eq (x := y) (by omega)]
  | case4 x y z rest ih =>
    have hx := x.toNat_lt
    have hy := y.toNat_lt
    have hz := z.toNat_lt
    obtain ⟨n, hn⟩ : ∃ n, x.toNat * 65536 + y.toNat * 256 + z.toNat = n := ⟨_, rfl⟩
    have h₁ : n / 262144 < 64 := by omega
    have h₂ : n / 4096 % 64 < 64 := by omega
    have h₃ : n / 64 % 64 < 64 := by omega
    have h₄ : n % 64 < 64 := by omega
    simp only [encode, decode?, hn, Alphabet.value?_letter h₁, Alphabet.value?_letter h₂,
      Alphabet.value?_letter h₃, Alphabet.value?_letter h₄, ih, Option.bind_eq_bind,
      Option.bind_some]
    rw [ofNat_eq (x := x) (by omega), ofNat_eq (x := y) (by omega), ofNat_eq (x := z) (by omega)]
    rfl

/-- Three bytes are four letters, and what is left over has one letter more than bytes. -/
theorem length_encode (bytes : List UInt8) :
    (encode a bytes).length = (4 * bytes.length + 2) / 3 := by
  induction bytes using encode.induct with
  | case1 => rfl
  | case2 x => simp [encode]
  | case3 x y => simp [encode]
  | case4 x y z rest ih =>
    rw [encode]
    simp only [List.length_cons, ih]
    omega

/-- Only letters of the alphabet are written. -/
theorem mem_letters_of_mem_encode {bytes : List UInt8} {c : Char} (h : c ∈ encode a bytes) :
    c ∈ a.letters := by
  induction bytes using encode.induct with
  | case1 => cases h
  | case2 x =>
    have hx := x.toNat_lt
    simp only [encode, List.mem_cons, List.not_mem_nil, or_false] at h
    rcases h with rfl | rfl
    · exact Alphabet.letter_mem (by omega)
    · exact Alphabet.letter_mem (by omega)
  | case3 x y =>
    have hx := x.toNat_lt
    have hy := y.toNat_lt
    simp only [encode, List.mem_cons, List.not_mem_nil, or_false] at h
    rcases h with rfl | rfl | rfl
    · exact Alphabet.letter_mem (by omega)
    · exact Alphabet.letter_mem (by omega)
    · exact Alphabet.letter_mem (by omega)
  | case4 x y z rest ih =>
    have hx := x.toNat_lt
    have hy := y.toNat_lt
    have hz := z.toNat_lt
    simp only [encode, List.mem_cons] at h
    rcases h with rfl | rfl | rfl | rfl | h
    · exact Alphabet.letter_mem (by omega)
    · exact Alphabet.letter_mem (by omega)
    · exact Alphabet.letter_mem (by omega)
    · exact Alphabet.letter_mem (by omega)
    · exact ih h

theorem Alphabet.mem_of_value? {c : Char} {n : Nat} (h : a.value? c = some n) : c ∈ a.letters := by
  obtain ⟨hn, he, -⟩ := List.idxOf?_eq_some_iff.mp h
  exact he ▸ List.getElem_mem hn

/-- Only letters of the alphabet are read. -/
theorem mem_letters_of_decode? {s : List Char} {bytes : List UInt8}
    (h : decode? a s = some bytes) {c : Char} (hc : c ∈ s) : c ∈ a.letters := by
  induction s using decode?.induct generalizing bytes with
  | case1 => cases hc
  | case2 p => cases h
  | case3 p q =>
    simp only [decode?, Option.bind_eq_bind, Option.bind_eq_some_iff] at h
    obtain ⟨m, hp, n, hq, -⟩ := h
    simp only [List.mem_cons, List.not_mem_nil, or_false] at hc
    rcases hc with rfl | rfl
    · exact Alphabet.mem_of_value? hp
    · exact Alphabet.mem_of_value? hq
  | case4 p q r =>
    simp only [decode?, Option.bind_eq_bind, Option.bind_eq_some_iff] at h
    obtain ⟨m, hp, n, hq, k, hr, -⟩ := h
    simp only [List.mem_cons, List.not_mem_nil, or_false] at hc
    rcases hc with rfl | rfl | rfl
    · exact Alphabet.mem_of_value? hp
    · exact Alphabet.mem_of_value? hq
    · exact Alphabet.mem_of_value? hr
  | case5 p q r t rest ih =>
    simp only [decode?, Option.bind_eq_bind, Option.bind_eq_some_iff] at h
    obtain ⟨m, hp, n, hq, k, hr, l, ht, more, hrest, -⟩ := h
    simp only [List.mem_cons] at hc
    rcases hc with rfl | rfl | rfl | rfl | hc
    · exact Alphabet.mem_of_value? hp
    · exact Alphabet.mem_of_value? hq
    · exact Alphabet.mem_of_value? hr
    · exact Alphabet.mem_of_value? ht
    · exact ih hrest hc

theorem point_not_mem_letters : '.' ∉ Alphabet.url.letters := by
  decide +kernel

theorem point_not_mem_encode (bytes : List UInt8) : '.' ∉ encode .url bytes := by
  exact fun h => point_not_mem_letters (mem_letters_of_mem_encode h)

end Base64
end BotFleet
