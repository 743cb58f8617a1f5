import BotFleet.Service.Action

/-
Operations on groups.
-/

namespace BotFleet
namespace Service
namespace Groups

open Json (Message)

def list : Action Answer := do
  let views ← Action.read fun f => f.store.groups.map f.store.groupView
  return .shown (.list (views.map Message.toJson))

def find (id : Id) : Action Group := Action.find (·.store.group? id) (missing "Group" id)

def view (g : Group) : Action Json := Action.read fun f => Message.toJson (f.store.groupView g)

def get (id : Id) : Action Answer := do
  return .shown (← view (← find id))

def create (request : GroupRequest) : Action Answer := do
  Action.check (Validation.name "name" request.name)
  let group ← Action.call (Store.createGroup request.name)
  return .created (← view group) .groups

def rename (id : Id) (request : GroupRequest) : Action Answer := do
  Action.check (Validation.name "name" request.name)
  match ← Action.call (Store.renameGroup id request.name) with
  | some group => return .changed (← view group) .groups
  | none => Action.fail (missing "Group" id)

def delete (id : Id) : Action Answer := do
  if ← Action.write (Store.deleteGroup id) then return .done (some .groups)
  else Action.fail (missing "Group" id)

/-- Makes a user a member of a group.  One who is a member already stays one, and
nothing has changed. -/
def addMember (group user : Id) : Action Answer := do
  let _ ← find group
  let _ ← Action.find (·.store.user? user) (missing "User" user)
  if ← Action.call (Store.addMember group user) then return .done (some .groupMembers)
  else return .done none

def removeMember (group user : Id) : Action Answer := do
  let _ ← find group
  if ← Action.write (Store.removeMember group user) then return .done (some .groupMembers)
  else Action.fail (missingPair "Membership" group user)

/-- Grants an authority to a group.  A repeated grant is answered as the first
one is. -/
def grant (id authority : Id) : Action Answer := do
  let _ ← find id
  Action.call (Store.grantGroup id authority)
  return .done (some .groups)

def revoke (id authority : Id) : Action Answer := do
  if ← Action.write (Store.revokeGroup id authority) then return .done (some .groups)
  else Action.fail (missingPair "Grant" id authority)

end Groups
end Service
end BotFleet
