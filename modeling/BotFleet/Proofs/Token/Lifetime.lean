import BotFleet.Proofs.Token.RoundTrip

/-
How long an issued token is good for.

The point in time at which a token expires stops short of overflow twice: once when the
hours of its life are counted in seconds, and once when these are added to the time of
issue.  A token is accepted as long as it has not been expired for longer than the
leeway, and then it says about its account what it was issued with.
-/

namespace BotFleet
namespace Token

theorem expiry_val (now hours : Tally) :
    (expiry now hours).val = min endOfTime (now.val + min endOfTime (hours.val * 3600)) := by
  have hnow := now.property
  have hhours := hours.property
  show max 0 (min (now.val + min endOfTime (hours.val * 3600)) endOfTime) = _
  have hend : endOfTime = 18446744073709551615 := rfl
  omega

/-- A token is parted by two points into letters. -/
theorem parts_encode (secret : String) (claims : Claims) :
    ∃ header payload signature,
      (encode secret claims).toList = header ++ '.' :: (payload ++ '.' :: signature) ∧
        '.' ∉ header ∧ '.' ∉ payload ∧ '.' ∉ signature := by
  let header := letters (Json.Message.write Header.standard)
  let payload := letters (Json.Message.write claims)
  let signature := Base64.encode .url (sign secret (header ++ '.' :: payload))
  refine ⟨header, payload, signature, ?_, point_not_mem_letters _, point_not_mem_letters _,
    Base64.point_not_mem_encode _⟩
  rw [encode, String.toList_ofList, List.append_assoc, List.cons_append]

/-- An issued token has three parts, and it is accepted with its key exactly until it has
been expired for longer than the leeway.  What it then claims is what it was issued with,
and its subject is read as the identifier of the account. -/
theorem issued_lives_until_expiry (secret : String) (hours issued now : Tally) (id : Id)
    (username : String) (authorities : List String) :
    let token := issue secret hours issued id username authorities
    let expires := min endOfTime (issued.val + min endOfTime (hours.val * 3600))
    (∃ header payload signature,
      token.toList = header ++ '.' :: (payload ++ '.' :: signature) ∧
        '.' ∉ header ∧ '.' ∉ payload ∧ '.' ∉ signature) ∧
      ((∃ claims, verify secret now token = .ok claims) ↔ now.val - 60 ≤ expires) ∧
      ∀ claims, verify secret now token = .ok claims →
        claims.userId? = some id ∧ claims.subject = Numeral.ofInt id.val ∧
          claims.username = username ∧ claims.authorities = authorities ∧
          claims.expires.val = expires ∧ claims.issued = issued := by
  intro token expires
  have hexpires : (expiry issued hours).val = expires := expiry_val issued hours
  have hverify : verify secret now token =
      if expires < now.val - 60 then .error .expired
      else .ok (claimsFor hours issued id username authorities) := by
    rw [← hexpires]
    exact verify_encode secret (claimsFor hours issued id username authorities) now
  refine ⟨parts_encode secret _, ⟨?_, ?_⟩, ?_⟩
  · rintro ⟨claims, h⟩
    rw [hverify] at h
    split at h
    · cases h
    · omega
  · intro hfresh
    exact ⟨_, hverify.trans (if_neg (Int.not_lt.mpr hfresh))⟩
  · intro claims h
    rw [hverify] at h
    split at h
    · cases h
    · cases h
      exact ⟨userId?_claimsFor hours issued id username authorities, rfl, rfl, rfl, hexpires, rfl⟩

end Token
end BotFleet
