import BotFleet.Service.Action

/-
Operations on accounts.
-/

namespace BotFleet
namespace Service
namespace Users

open Json (Message)

def list : Action Answer := do
  let users ← Action.read fun f => f.store.users
  return .shown (.list (users.map Message.toJson))

def find (id : Id) : Action User := Action.find (·.store.user? id) (missing "User" id)

def get (id : Id) : Action Answer := do
  return .shown (Message.toJson (← find id))

def create (c : Context) (request : NewUser) : Action Answer := do
  Action.check (Validation.username request.username)
  Action.check (Validation.password request.password)
  if (← Action.read fun f => f.store.userNamed? request.username).isSome then
    Action.fail (.conflict s!"Username '{request.username}' is already taken")
  let hash ← Action.hash c request.password
  let user ← Action.call (Store.createUser request.username hash request.enabled c.now)
  return .created (Message.toJson user) .users

def newPassword (c : Context) (password : String) : Action String := do
  Action.check (Validation.password password)
  Action.hash c password

/-- Alters an account.  What the request leaves out stays as it is. -/
def edit (c : Context) (id : Id) (request : UserEdit) : Action Answer := do
  request.username.forM fun name => Action.check (Validation.username name)
  let hash ← request.password.mapM (newPassword c)
  let changes : Store.UserChanges := ⟨request.username, request.enabled, hash⟩
  match ← Action.call (Store.updateUser id changes) with
  | some user => return .changed (Message.toJson user) .users
  | none => Action.fail (missing "User" id)

def delete (id : Id) : Action Answer := do
  if ← Action.write (Store.deleteUser id) then return .done (some .users)
  else Action.fail (missing "User" id)

/-- Grants an authority to an account.  A repeated grant is answered as the first
one is. -/
def grant (id authority : Id) : Action Answer := do
  let _ ← find id
  Action.call (Store.grantUser id authority)
  return .done (some .users)

def revoke (id authority : Id) : Action Answer := do
  if ← Action.write (Store.revokeUser id authority) then return .done (some .users)
  else Action.fail (missingPair "Grant" id authority)

end Users
end Service
end BotFleet
