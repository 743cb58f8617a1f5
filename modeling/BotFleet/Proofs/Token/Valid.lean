import BotFleet.Proofs.Token.RoundTrip

/-
What a token has to be.

`Valid` lists all that is asked of a token, without an order in which it is asked.
Verification accepts exactly the valid tokens and yields the claims they make.
-/

namespace BotFleet
namespace Token

/-- A token that makes claims at a point in time: two points part it into a header,
claims and a signature, the header names the keyed hash, the signature is that of the
two parts before it, the claims have their shape, they have not been expired for longer
than the leeway, and they name no audience. -/
structure Valid (secret : String) (now : Tally) (token : String) (claims : Claims) : Prop where
  parts : ∃ header payload signature,
    token.toList = header ++ '.' :: (payload ++ '.' :: signature) ∧
      '.' ∉ header ∧ '.' ∉ payload ∧ '.' ∉ signature ∧
      (∃ h, messageOf Header header = .ok h ∧ h.algorithm = keyedHash) ∧
      Base64.decode? .url signature = some (sign secret (header ++ '.' :: payload)) ∧
      messageOf Claims payload = .ok claims ∧
      ∃ conditions, conditionsOf payload = .ok conditions ∧ conditions.hasAudience = false
  fresh : now.val - leeway ≤ claims.expires.val

variable {secret token : String} {now : Tally} {claims : Claims}

/-- A header that can be read holds no point. -/
theorem point_not_mem_of_messageOf {part : List Char} {h : Header}
    (hread : messageOf Header part = .ok h) : '.' ∉ part := by
  intro hm
  unfold messageOf sourceOf at hread
  cases hd : Base64.decode? .url part with
  | none => rw [hd] at hread; cases hread
  | some bytes =>
    exact Base64.point_not_mem_letters (Base64.mem_letters_of_decode? hd hm)

theorem Valid.verify (h : Valid secret now token claims) :
    Token.verify secret now token = .ok claims := by
  obtain ⟨⟨header, payload, signature, htoken, -, hpayload, hsignature, ⟨hd, hheader, halg⟩,
    hsign, hclaims, conditions, hconditions, haudience⟩, hfresh⟩ := h
  have hassoc : header ++ '.' :: (payload ++ '.' :: signature) =
      (header ++ '.' :: payload) ++ '.' :: signature := by simp
  rw [Token.verify, htoken, hassoc, splitAtLastPoint_append hsignature]
  simp only [splitAtLastPoint_append hpayload, hheader, hsign, hclaims, hconditions, halg,
    haudience]
  rw [if_neg (by simp), if_neg (by simp), if_neg (by omega), if_neg (by simp)]

theorem valid_of_verify (h : Token.verify secret now token = .ok claims) :
    Valid secret now token claims := by
  unfold Token.verify at h
  split at h
  · cases h
  rename_i signed signature houter
  split at h
  · cases h
  rename_i header payload hinner
  obtain ⟨htoken, hsignature⟩ := splitAtLastPoint_eq_some_iff.mp houter
  obtain ⟨rfl, hpayload⟩ := splitAtLastPoint_eq_some_iff.mp hinner
  split at h
  · cases h
  rename_i hd hheader
  split at h
  · cases h
  rename_i halg
  split at h
  · cases h
  rename_i bytes hbytes
  split at h
  · cases h
  rename_i hsign
  split at h
  · cases h
  rename_i found hclaims
  split at h
  · cases h
  rename_i conditions hconditions
  split at h
  · cases h
  rename_i hfresh
  split at h
  · cases h
  rename_i haudience
  cases h
  refine ⟨⟨header, payload, signature, by rw [htoken]; simp, point_not_mem_of_messageOf hheader,
    hpayload, hsignature, ⟨hd, hheader, by simpa using halg⟩, ?_, hclaims, conditions,
    hconditions, by simpa using haudience⟩, by omega⟩
  rw [hbytes]
  exact congrArg some (by simpa using hsign)

/-- Verification accepts the valid tokens and no others. -/
theorem verify_eq_ok_iff : Token.verify secret now token = .ok claims ↔
    Valid secret now token claims :=
  ⟨valid_of_verify, Valid.verify⟩

/-- A token that was issued is valid until it is too old. -/
theorem valid_encode (h : now.val - leeway ≤ claims.expires.val) :
    Valid secret now (encode secret claims) claims := by
  refine valid_of_verify ?_
  rw [verify_encode, if_neg (by omega)]

end Token
end BotFleet
