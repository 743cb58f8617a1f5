import BotFleet.Store.Basic

/-
Accounts and what they are granted.

No two accounts share a user name.  An account holds the authorities granted to
it and those granted to the groups it is a member of.
-/

namespace BotFleet
namespace Store

/-! ## Reading -/

def user? (s : Store) (id : Id) : Option User := Table.find? id s.users

def userNamed? (s : Store) (name : String) : Option User :=
  s.users.find? fun u => u.username == name

def nameTakenBeside (s : Store) (id : Id) (name : String) : Bool :=
  s.users.any fun u => u.id != id && u.username == name

/-- Whether a user holds an authority, by itself or through a group. -/
def holds (s : Store) (user authority : Id) : Bool :=
  s.userGrants.contains ⟨user, authority⟩ ||
    s.memberships.any fun m => m.user == user && s.groupGrants.contains ⟨m.group, authority⟩

def sortNames (names : List String) : List String := names.mergeSort fun a b => a ≤ b

/-- The names of the authorities that a user holds, each of them once. -/
def authoritiesOf (s : Store) (user : Id) : List String :=
  sortNames (((s.authorities.filter fun a => s.holds user a.id).map (·.name)).eraseDups)

def profile (s : Store) (u : User) : Profile where
  id := u.id
  username := u.username
  enabled := u.enabled
  authorities := s.authoritiesOf u.id

/-! ## Writing -/

def addUser (u : User) (authority : Id) (s : Store) : Call User :=
  if Table.has u.id s.users || (s.userNamed? u.username).isSome then .error .duplicate
  else if !Table.has authority s.authorities then .error .dangling
  else .ok (u, { s with
    users := Table.insert u s.users
    userGrants := link ⟨u.id, authority⟩ s.userGrants })

/-- Adds an account under a new identifier.  It holds the authority of every new
user. -/
def createUser (name hash : String) (enabled : Bool) (now : Instant) (s : Store) : Call User :=
  match Table.nextId? s.users with
  | none => .error full
  | some id =>
    s.addUser { id, username := name, enabled, password := hash, created := now }
      userAuthority.id

def createUserWithId (id : Id) (name hash : String) (authority : Id) (now : Instant)
    (s : Store) : Call User :=
  s.addUser { id, username := name, enabled := true, password := hash, created := now } authority

structure UserChanges where
  username : Option String
  enabled : Option Bool
  password : Option String
deriving DecidableEq

def UserChanges.apply (c : UserChanges) (u : User) : User :=
  { u with
    username := c.username.getD u.username
    enabled := c.enabled.getD u.enabled
    password := c.password.getD u.password }

def updateUser (id : Id) (c : UserChanges) (s : Store) : Call (Option User) :=
  match s.user? id with
  | none => .ok (none, s)
  | some u =>
    if s.nameTakenBeside id (c.apply u).username then .error .duplicate
    else .ok (some (c.apply u), { s with users := Table.update id c.apply s.users })

/-- Deletes an account with its grants and memberships.  Says whether there was
one. -/
def deleteUser (id : Id) (s : Store) : Bool × Store :=
  (Table.has id s.users, { s with
    users := Table.erase id s.users
    userGrants := s.userGrants.filter (·.holder ≠ id)
    memberships := s.memberships.filter (·.user ≠ id) })

/-- Grants an authority to a user.  A repeated grant changes nothing. -/
def grantUser (user authority : Id) (s : Store) : Call Unit :=
  if Table.has user s.users && Table.has authority s.authorities then
    .ok ((), { s with userGrants := link ⟨user, authority⟩ s.userGrants })
  else .error .dangling

def revokeUser (user authority : Id) (s : Store) : Bool × Store :=
  let (found, grants) := unlink ⟨user, authority⟩ s.userGrants
  (found, { s with userGrants := grants })

end Store
end BotFleet
