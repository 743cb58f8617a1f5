import BotFleet.Bootstrap
import BotFleet.Proofs.Store.Calls

/-
What becomes of the first account on a start.

A store that has it is left alone.  In one that lacks it the start fails if the password
cannot be hashed or the account cannot be added, and otherwise the account is all that
is new.
-/

namespace BotFleet

theorem Password.exists_hash {cost : Cost} (h : isCost cost = true) (salt : List UInt8)
    (password : String) : ∃ hash, Scheme.blowfish.hash cost salt password = .ok hash := by
  have hdigest : digest cost salt password =
      .ok (Blowfish.digest cost.val.toNat salt (effectiveBytes password)) := if_pos h
  show ∃ hash, (digest cost salt password).map _ = .ok hash
  rw [hdigest]
  exact ⟨_, rfl⟩

namespace Bootstrap

variable {scheme : Password.Scheme} {cost : Cost} {now : Instant} {chance : Chance}
  {s s' : Store} {password : Option String}

/-- The password of a new first account. -/
def passwordOf (chance : Chance) : String := Password.ofDraws (chance.draws.take passwordLength)

theorem ensureRoot_of_some {u : User} (h : s.user? rootId = some u) :
    ensureRoot scheme cost now chance s = .ok (none, s) := by
  rw [ensureRoot, h]
  rfl

theorem ensureRoot_of_none {hash : String} (h : s.user? rootId = none)
    (hhash : scheme.hash cost chance.salt (passwordOf chance) = .ok hash) :
    ensureRoot scheme cost now chance s =
      match s.createUserWithId rootId rootName hash Store.adminAuthority.id now with
      | .error fault => .error (.store fault)
      | .ok (_, after) => .ok (some (passwordOf chance), after) := by
  rw [passwordOf] at hhash
  rw [ensureRoot, h]
  simp only [hhash]
  rfl

/-- A start finds the first account or adds it. -/
theorem ensureRoot_eq_ok (hc : ensureRoot scheme cost now chance s = .ok (password, s')) :
    (∃ u, s.user? rootId = some u ∧ password = none ∧ s' = s) ∨
      s.user? rootId = none ∧ password = some (passwordOf chance) ∧
        ∃ hash u, scheme.hash cost chance.salt (passwordOf chance) = .ok hash ∧
          s.createUserWithId rootId rootName hash Store.adminAuthority.id now = .ok (u, s') := by
  cases huser : s.user? rootId with
  | some u =>
    rw [ensureRoot_of_some huser] at hc
    cases hc
    exact .inl ⟨u, rfl, rfl, rfl⟩
  | none =>
    cases hhash : scheme.hash cost chance.salt (passwordOf chance) with
    | error fault =>
      rw [passwordOf] at hhash
      rw [ensureRoot, huser] at hc
      simp only [hhash] at hc
      cases hc
    | ok hash =>
      rw [ensureRoot_of_none huser hhash] at hc
      split at hc
      · cases hc
      · rename_i u after hcall
        cases hc
        exact .inr ⟨rfl, rfl, hash, u, rfl, hcall⟩

end Bootstrap
end BotFleet
