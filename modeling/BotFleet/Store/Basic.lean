import BotFleet.Account
import BotFleet.Group
import BotFleet.Instance
import BotFleet.Store.Fault
import BotFleet.Store.Table

/-
The store: accounts, groups, authorities and instances.

Besides the four tables there are three relations.  A pair of a relation refers
to a row on either side, so pairs are only added between rows that exist and go
when either row does.  A call either yields a new store or fails and yields none,
so a failed call changes nothing.
-/

namespace BotFleet

instance : Row User := ⟨User.id⟩
instance : Row Group := ⟨Group.id⟩
instance : Row Authority := ⟨Authority.id⟩
instance : Row Instance := ⟨Instance.id⟩

structure Grant where
  holder : Id
  authority : Id
deriving DecidableEq

structure Membership where
  group : Id
  user : Id
deriving DecidableEq

structure Store where
  users : List User
  groups : List Group
  authorities : List Authority
  instances : List Instance
  userGrants : List Grant
  groupGrants : List Grant
  memberships : List Membership
deriving DecidableEq

namespace Store

/-- The outcome of a call that may fail. -/
abbrev Call (α : Type) := Except Fault (α × Store)

/-- The fault of a table in which no identifier is left. -/
def full : Fault := .broken "database or disk is full"

/-- The authority of every new user. -/
def userAuthority : Authority := ⟨⟨-1, by decide⟩, "ROLE_USER"⟩

def adminAuthority : Authority := ⟨.zero, "ROLE_ADMIN"⟩

def fresh : Store where
  users := []
  groups := []
  authorities := [userAuthority, adminAuthority]
  instances := []
  userGrants := []
  groupGrants := []
  memberships := []

def link {α : Type} [DecidableEq α] (pair : α) (pairs : List α) : List α :=
  if pair ∈ pairs then pairs else pairs ++ [pair]

def unlink {α : Type} [DecidableEq α] (pair : α) (pairs : List α) : Bool × List α :=
  (pairs.contains pair, pairs.filter (· ≠ pair))

theorem mem_link {α : Type} [DecidableEq α] (pair other : α) (pairs : List α) :
    other ∈ link pair pairs ↔ other = pair ∨ other ∈ pairs := by
  unfold link
  split
  · rename_i h
    exact ⟨.inr, fun hor => hor.elim (fun he => he ▸ h) id⟩
  · simp [or_comm]

theorem mem_unlink {α : Type} [DecidableEq α] (pair other : α) (pairs : List α) :
    other ∈ (unlink pair pairs).2 ↔ other ∈ pairs ∧ other ≠ pair := by
  simp [unlink]

end Store
end BotFleet
