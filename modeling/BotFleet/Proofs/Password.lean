import BotFleet.Password
import BotFleet.Proofs.Crypto.Base64
import BotFleet.Proofs.Text.Utf8

/-
Which candidates pass for a password.

What counts of a text are the first seventy-two bytes of the text and the zero byte
that ends it.  A password of at most seventy bytes is all there with its end, so no
other text agrees with it.  One of seventy-two bytes leaves no room for the end, and
then nothing tells it from a longer text that begins with it; a zero byte at the end
of a text may likewise pass for the end itself.  `Alias` names these texts, and
`effectiveBytes_eq_iff` shows that there are no others.
-/

namespace BotFleet
namespace Password

/-- Another text that agrees with a password of at most seventy-two bytes in all that
counts. -/
inductive Alias (password candidate : String) : Prop
  /-- The password leaves no room for its end. -/
  | longer (hsize : password.utf8ByteSize = 72) (h : password.toList <+: candidate.toList)
  /-- A zero byte of the candidate passes for the end of the password. -/
  | ended (hsize : password.utf8ByteSize = 71)
    (h : password.toList ++ ['\x00'] <+: candidate.toList)
  /-- The end of the candidate passes for a zero byte of the password. -/
  | shorter (hsize : candidate.utf8ByteSize = 71)
    (h : password.toList = candidate.toList ++ ['\x00'])

/-! ## Texts with an end -/

section Ended

variable {α : Type} {n : Nat} {z : α} {a b : List α}

theorem take_ended_of_lt (h : a.length < n) : (a ++ [z]).take n = a ++ [z] :=
  List.take_of_length_le (by rw [List.length_append]; exact h)

theorem take_ended_of_le (h : n ≤ a.length) : (a ++ [z]).take n = a.take n :=
  List.take_append_of_le_length h

theorem prefix_iff_take_eq (h : b.length = n) : b <+: a ↔ a.take n = b := by
  rw [List.prefix_iff_eq_take, h]
  exact eq_comm

theorem take_ended_eq_iff (hb : b.length ≤ n) :
    (a ++ [z]).take n = (b ++ [z]).take n ↔
      a = b ∨ (b.length = n ∧ b <+: a) ∨ (b.length + 1 = n ∧ b ++ [z] <+: a) ∨
        (a.length + 1 = n ∧ b = a ++ [z]) := by
  have hended : (b ++ [z]).length = b.length + 1 := List.length_append
  constructor
  · intro h
    -- What is left of a list depends on whether there is room for its end.
    rcases Nat.lt_or_ge b.length n with hbn | hbn <;> rcases Nat.lt_or_ge a.length n with han | han
    · rw [take_ended_of_lt han, take_ended_of_lt hbn] at h
      exact .inl (List.append_cancel_right h)
    · rw [take_ended_of_le han, take_ended_of_lt hbn] at h
      have hlength := congrArg List.length h
      rw [List.length_take, Nat.min_eq_left han, hended] at hlength
      exact .inr (.inr (.inl ⟨hlength.symm, h ▸ List.take_prefix n a⟩))
    · rw [take_ended_of_lt han, take_ended_of_le hbn, List.take_of_length_le hb] at h
      refine .inr (.inr (.inr ⟨?_, h.symm⟩))
      rw [← Nat.le_antisymm hb hbn, ← h, List.length_append]
      rfl
    · rw [take_ended_of_le han, take_ended_of_le hbn, List.take_of_length_le hb] at h
      exact .inr (.inl ⟨Nat.le_antisymm hb hbn, h ▸ List.take_prefix n a⟩)
  · rintro (rfl | ⟨hlength, hprefix⟩ | ⟨hlength, hprefix⟩ | ⟨hlength, rfl⟩)
    · rfl
    · have han : n ≤ a.length := hlength ▸ hprefix.length_le
      rw [take_ended_of_le han, take_ended_of_le (Nat.le_of_eq hlength.symm),
        List.take_of_length_le hb]
      exact (prefix_iff_take_eq hlength).mp hprefix
    · have hsize : (b ++ [z]).length = n := hended.trans hlength
      have han : n ≤ a.length := hsize ▸ hprefix.length_le
      rw [take_ended_of_le han, take_ended_of_lt (Nat.lt_of_succ_le (Nat.le_of_eq hlength))]
      exact (prefix_iff_take_eq hsize).mp hprefix
    · have hsize : (a ++ [z]).length = n := List.length_append.trans hlength
      rw [take_ended_of_lt (Nat.lt_of_succ_le (Nat.le_of_eq hlength)),
        take_ended_of_le (Nat.le_of_eq hsize.symm), List.take_of_length_le (Nat.le_of_eq hsize)]

end Ended

theorem encode_ended (password : String) :
    Utf8.encode (password.toList ++ ['\x00']) = Utf8.encode password.toList ++ [0] :=
  Utf8.encode_append _ _

/-- A candidate agrees with a password in what counts if it is the password or one of
the texts that the end of the password does not tell from it. -/
theorem effectiveBytes_eq_iff {password candidate : String} (h : password.utf8ByteSize ≤ 72) :
    effectiveBytes candidate = effectiveBytes password ↔
      candidate = password ∨ Alias password candidate := by
  rw [← Utf8.length_encode] at h
  rw [effectiveBytes, effectiveBytes, take_ended_eq_iff h, ← encode_ended, ← encode_ended,
    Utf8.encode_inj, Utf8.encode_inj, Utf8.encode_prefix_iff, Utf8.encode_prefix_iff,
    Utf8.length_encode, Utf8.length_encode, String.toList_inj]
  constructor
  · rintro (rfl | ⟨hsize, hprefix⟩ | ⟨hsize, hprefix⟩ | ⟨hsize, heq⟩)
    · exact .inl rfl
    · exact .inr (.longer hsize hprefix)
    · exact .inr (.ended (Nat.succ.inj hsize) hprefix)
    · exact .inr (.shorter (Nat.succ.inj hsize) heq)
  · rintro (rfl | ⟨hsize, hprefix⟩ | ⟨hsize, hprefix⟩ | ⟨hsize, heq⟩)
    · exact .inl rfl
    · exact .inr (.inl ⟨hsize, hprefix⟩)
    · exact .inr (.inr (.inl ⟨by rw [hsize], hprefix⟩))
    · exact .inr (.inr (.inr ⟨by rw [hsize], heq⟩))

/-- Only a password that fills what counts, or fills it with its end, has an alias. -/
theorem Alias.size_le {password candidate : String} (h : Alias password candidate) :
    71 ≤ password.utf8ByteSize := by
  cases h with
  | longer hsize _ => omega
  | ended hsize _ => omega
  | shorter hsize h =>
    rw [← Utf8.length_encode] at hsize
    rw [← Utf8.length_encode, h, encode_ended, List.length_append, hsize]
    decide

/-! ## Schemes -/

/-- What is stored of the password tells it from the candidate by what counts of
them. -/
def Scheme.Tells (s : Scheme) (password candidate : String) : Prop :=
  ∀ cost salt stored, s.hash cost salt password = .ok stored →
    s.verify candidate stored =
      .ok (decide (effectiveBytes candidate = effectiveBytes password))

/-- What counts of a password, in sixty-four letters. -/
def Scheme.plainText (password : String) : String :=
  String.ofList (Base64.encode .password (effectiveBytes password))

/-- The scheme that stores what counts of a password, and that as it is. -/
def Scheme.plain : Scheme where
  hash cost _ password :=
    if isCost cost then .ok (plainText password) else .error (.costNotAllowed cost)
  verify candidate stored := .ok (plainText candidate == stored)

theorem Scheme.plainText_inj {password candidate : String} :
    plainText candidate = plainText password ↔
      effectiveBytes candidate = effectiveBytes password := by
  constructor
  · intro h
    have hletters := congrArg (fun text => Base64.decode? .password text.toList) h
    simpa only [plainText, String.toList_ofList, Base64.decode?_encode, Option.some.injEq]
      using hletters
  · intro h
    rw [plainText, h, plainText]

theorem Scheme.plain_tells (password candidate : String) : plain.Tells password candidate := by
  intro cost salt stored h
  have hstored : plainText password = stored := by
    rw [plain] at h
    dsimp only at h
    split at h
    · exact Except.ok.inj h
    · cases h
  show Except.ok (plainText candidate == stored) = _
  rw [← hstored, beq_eq_decide, decide_eq_decide.mpr plainText_inj]

end Password
end BotFleet
