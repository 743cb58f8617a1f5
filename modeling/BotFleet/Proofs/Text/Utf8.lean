import BotFleet.Text.Utf8

/-
Reading back the bytes of a text.

A character is written in one to four bytes, as its code point asks for.  One step
of decoding takes these bytes off again: they are in the ranges that it demands,
because a code point is never written in more bytes than it needs and none is a
surrogate or above the last one.
-/

namespace BotFleet
namespace Utf8

theorem isContinuation_of {b : UInt8} (h : b.toNat / 64 = 2) : isContinuation b = true := by
  have hall : ∀ n : Fin 256, n.val / 64 = 2 → isContinuation (UInt8.ofNat n.val) = true := by
    decide +kernel
  have hb := hall ⟨b.toNat, b.toNat_lt⟩ h
  rwa [UInt8.ofNat_toNat] at hb

theorem inSecondRange {b c : UInt8} (hc : c.toNat / 64 = 2)
    (hE0 : b.toNat = 0xE0 → 0xA0 ≤ c.toNat) (hED : b.toNat = 0xED → c.toNat ≤ 0x9F)
    (hF0 : b.toNat = 0xF0 → 0x90 ≤ c.toNat) (hF4 : b.toNat = 0xF4 → c.toNat ≤ 0x8F) :
    ((secondRange b).1 ≤ c && c ≤ (secondRange b).2) = true := by
  unfold secondRange
  simp only [beq_iff_eq, ← UInt8.toNat_inj, UInt8.le_iff_toNat_le, Bool.and_eq_true,
    decide_eq_true_eq]
  split
  · rename_i h
    exact ⟨hE0 h, show c.toNat ≤ 0xBF by omega⟩
  · split
    · rename_i h
      exact ⟨show 0x80 ≤ c.toNat by omega, hED h⟩
    · split
      · rename_i h
        exact ⟨hF0 h, show c.toNat ≤ 0xBF by omega⟩
      · split
        · rename_i h
          exact ⟨show 0x80 ≤ c.toNat by omega, hF4 h⟩
        · exact ⟨show 0x80 ≤ c.toNat by omega, show c.toNat ≤ 0xBF by omega⟩

variable {b c d e : UInt8} {rest : List UInt8}

theorem lt_of_toNat_lt (c : UInt8) (h : b.toNat < c.toNat) : b < c := UInt8.lt_iff_toNat_lt.mpr h

theorem not_lt_of_toNat_le (c : UInt8) (h : c.toNat ≤ b.toNat) : ¬ b < c :=
  fun hlt => Nat.not_lt.mpr h (UInt8.lt_iff_toNat_lt.mp hlt)

theorem decodeStep_one (hb : b.toNat < 0x80) :
    decodeStep b rest = (some (Char.ofNat b.toNat), rest) := by
  rw [decodeStep.eq_def, if_pos (lt_of_toNat_lt 0x80 hb)]

theorem decodeStep_two (hb : 0xC2 ≤ b.toNat) (hb' : b.toNat < 0xE0) (hc : c.toNat / 64 = 2) :
    decodeStep b (c :: rest) =
      (some (Char.ofNat (b.toNat % 32 * 64 + low c)), rest) := by
  have hlow : 0x80 ≤ b.toNat := by omega
  rw [decodeStep.eq_def, if_neg (not_lt_of_toNat_le 0x80 hlow), if_neg (not_lt_of_toNat_le 0xC2 hb),
    if_pos (lt_of_toNat_lt 0xE0 hb')]
  simp only [isContinuation_of hc, if_true]

theorem decodeStep_three (hb : 0xE0 ≤ b.toNat) (hb' : b.toNat < 0xF0) (hc : c.toNat / 64 = 2)
    (hd : d.toNat / 64 = 2) (hE0 : b.toNat = 0xE0 → 0xA0 ≤ c.toNat)
    (hED : b.toNat = 0xED → c.toNat ≤ 0x9F) :
    decodeStep b (c :: d :: rest) =
      (some (Char.ofNat (b.toNat % 16 * 4096 + low c * 64 + low d)), rest) := by
  have hlow : 0x80 ≤ b.toNat := by omega
  have hmid : 0xC2 ≤ b.toNat := by omega
  have hhigh : b.toNat < 0xF5 := by omega
  have hrange := inSecondRange hc hE0 hED (fun h => by omega) (fun h => by omega)
  rw [decodeStep.eq_def, if_neg (not_lt_of_toNat_le 0x80 hlow), if_neg (not_lt_of_toNat_le 0xC2 hmid),
    if_neg (not_lt_of_toNat_le 0xE0 hb), if_pos (lt_of_toNat_lt 0xF5 hhigh)]
  simp only [hrange, isContinuation_of hd, if_true]
  rw [if_pos (lt_of_toNat_lt 0xF0 hb')]

theorem decodeStep_four (hb : 0xF0 ≤ b.toNat) (hb' : b.toNat < 0xF5) (hc : c.toNat / 64 = 2)
    (hd : d.toNat / 64 = 2) (he : e.toNat / 64 = 2) (hF0 : b.toNat = 0xF0 → 0x90 ≤ c.toNat)
    (hF4 : b.toNat = 0xF4 → c.toNat ≤ 0x8F) :
    decodeStep b (c :: d :: e :: rest) =
      (some (Char.ofNat (b.toNat % 8 * 262144 + low c * 4096 + low d * 64 + low e)), rest) := by
  have hlow : 0x80 ≤ b.toNat := by omega
  have hmid : 0xC2 ≤ b.toNat := by omega
  have hthree : 0xE0 ≤ b.toNat := by omega
  have hrange := inSecondRange hc (fun h => by omega) (fun h => by omega) hF0 hF4
  rw [decodeStep.eq_def, if_neg (not_lt_of_toNat_le 0x80 hlow), if_neg (not_lt_of_toNat_le 0xC2 hmid),
    if_neg (not_lt_of_toNat_le 0xE0 hthree), if_pos (lt_of_toNat_lt 0xF5 hb')]
  simp only [hrange, isContinuation_of hd, isContinuation_of he, if_true]
  rw [if_neg (not_lt_of_toNat_le 0xF0 hb)]

/-- The code point of a character is no surrogate and not above the last one. -/
theorem codePoint_range (c : Char) :
    c.toNat < 0xD800 ∨ 0xDFFF < c.toNat ∧ c.toNat < 0x110000 := c.valid

/-- The bytes of a character, by the size of its code point. -/
theorem units_encodeChar (c : Char) (rest : List UInt8) :
    units (String.utf8EncodeChar c ++ rest) = some c :: units rest := by
  have hrange := codePoint_range c
  have hsmall : ∀ n, n < 256 → (UInt8.ofNat n).toNat = n := by
    intro n hn
    rw [UInt8.toNat_ofNat', Nat.mod_eq_of_lt hn]
  obtain ⟨n, hn⟩ : ∃ n, c.toNat = n := ⟨_, rfl⟩
  have hc : Char.ofNat n = c := by rw [← hn, Char.ofNat_toNat]
  have hval : c.val.toNat = n := hn
  rw [hn] at hrange
  unfold String.utf8EncodeChar
  simp only [hval]
  by_cases h₁ : n ≤ 0x7F
  · have ha := hsmall n (by omega)
    rw [if_pos h₁, List.cons_append, List.nil_append, units, decodeStep_one (by omega), ha, hc]
  by_cases h₂ : n ≤ 0x7FF
  · have ha := hsmall (n / 64 % 0x20 + 0xC0) (by omega)
    have hb := hsmall (n % 0x40 + 0x80) (by omega)
    rw [if_neg h₁, if_pos h₂, List.cons_append, List.cons_append, List.nil_append, units,
      decodeStep_two (by omega) (by omega) (by omega), low, ha, hb]
    have hsum : (n / 64 % 0x20 + 0xC0) % 32 * 64 + (n % 0x40 + 0x80) % 64 = n := by omega
    rw [hsum, hc]
  by_cases h₃ : n ≤ 0xFFFF
  · have ha := hsmall (n / 4096 % 0x10 + 0xE0) (by omega)
    have hb := hsmall (n / 64 % 0x40 + 0x80) (by omega)
    have hd := hsmall (n % 0x40 + 0x80) (by omega)
    rw [if_neg h₁, if_neg h₂, if_pos h₃, List.cons_append, List.cons_append, List.cons_append,
      List.nil_append, units, decodeStep_three (by omega) (by omega) (by omega) (by omega)
        (by omega) (by omega), low, low, ha, hb, hd]
    have hsum : (n / 4096 % 0x10 + 0xE0) % 16 * 4096 + (n / 64 % 0x40 + 0x80) % 64 * 64 +
        (n % 0x40 + 0x80) % 64 = n := by omega
    rw [hsum, hc]
  · have ha := hsmall (n / 262144 % 0x08 + 0xF0) (by omega)
    have hb := hsmall (n / 4096 % 0x40 + 0x80) (by omega)
    have hd := hsmall (n / 64 % 0x40 + 0x80) (by omega)
    have he := hsmall (n % 0x40 + 0x80) (by omega)
    rw [if_neg h₁, if_neg h₂, if_neg h₃, List.cons_append, List.cons_append, List.cons_append,
      List.cons_append, List.nil_append, units, decodeStep_four (by omega) (by omega) (by omega)
        (by omega) (by omega) (by omega) (by omega), low, low, low, ha, hb, hd, he]
    have hsum : (n / 262144 % 0x08 + 0xF0) % 8 * 262144 + (n / 4096 % 0x40 + 0x80) % 64 * 4096 +
        (n / 64 % 0x40 + 0x80) % 64 * 64 + (n % 0x40 + 0x80) % 64 = n := by omega
    rw [hsum, hc]

/-- A text is read from its bytes before whatever follows them. -/
theorem units_encode_append (s : List Char) (rest : List UInt8) :
    units (encode s ++ rest) = s.map some ++ units rest := by
  induction s with
  | nil => rfl
  | cons c s ih =>
    rw [encode, List.flatMap_cons, List.append_assoc, units_encodeChar]
    exact congrArg (some c :: ·) ih

theorem units_encode (s : List Char) : units (encode s) = s.map some := by
  have h := units_encode_append s []
  rwa [List.append_nil, units, List.append_nil] at h

theorem decode?_encode (s : List Char) : decode? (encode s) = some s := by
  rw [decode?, units_encode]
  induction s with
  | nil => rfl
  | cons c s ih =>
    rw [List.map_cons, List.mapM_cons, ih]
    rfl

/-! ## Texts by their bytes -/

theorem encode_append (s t : List Char) : encode (s ++ t) = encode s ++ encode t :=
  List.flatMap_append

theorem encode_inj {s t : List Char} : encode s = encode t ↔ s = t := by
  constructor
  · intro h
    have hread : decode? (encode s) = decode? (encode t) := congrArg decode? h
    rw [decode?_encode, decode?_encode] at hread
    exact Option.some.inj hread
  · exact congrArg encode

/-- Bytes begin with those of a text only where the text itself stands first. -/
theorem encode_prefix_iff {s t : List Char} : encode s <+: encode t ↔ s <+: t := by
  constructor
  · rintro ⟨rest, hrest⟩
    have hunits : s.map some <+: t.map some :=
      ⟨units rest, by rw [← units_encode_append, hrest, units_encode]⟩
    exact (List.prefix_map_iff_of_injective fun _ _ => Option.some.inj).mp hunits
  · rintro ⟨rest, rfl⟩
    rw [encode_append]
    exact List.prefix_append _ _

/-- Characters of one byte each are as many as their bytes. -/
theorem length_encode_of_utf8Size {s : List Char} (h : ∀ c ∈ s, c.utf8Size = 1) :
    (encode s).length = s.length := by
  induction s with
  | nil => rfl
  | cons c s ih =>
    have hc : (String.utf8EncodeChar c).length = 1 := by
      rw [String.length_utf8EncodeChar, h c List.mem_cons_self]
    have hs : (encode s).length = s.length := ih fun d hd => h d (List.mem_cons_of_mem _ hd)
    have hcons : encode (c :: s) = String.utf8EncodeChar c ++ encode s := rfl
    rw [hcons, List.length_append, hc, hs, List.length_cons, Nat.add_comm]

theorem length_encode (s : String) : (encode s.toList).length = s.utf8ByteSize := by
  have hbytes : s.toByteArray = (encode s.toList).toByteArray :=
    congrArg String.toByteArray String.ofList_toList.symm
  rw [String.utf8ByteSize, hbytes, List.size_toByteArray]

end Utf8
end BotFleet
