import BotFleet.Store.Basic

/-
Groups, their members and what they are granted.

No two groups share a name.
-/

namespace BotFleet
namespace Store

/-! ## Reading -/

def group? (s : Store) (id : Id) : Option Group := Table.find? id s.groups

def groupNamed? (s : Store) (name : String) : Option Group :=
  s.groups.find? fun g => g.name == name

/-- Whether a group other than the one given has a name. -/
def groupTakenBeside (s : Store) (id : Id) (name : String) : Bool :=
  s.groups.any fun g => g.id != id && g.name == name

def sortIds (ids : List Id) : List Id := ids.mergeSort fun a b => a ≤ b

def membersOf (s : Store) (group : Id) : List Id :=
  sortIds ((s.memberships.filter fun m => m.group == group).map (·.user))

def groupView (s : Store) (g : Group) : GroupView where
  id := g.id
  name := g.name
  members := s.membersOf g.id

/-! ## Writing -/

def createGroup (name : String) (s : Store) : Call Group :=
  match Table.nextId? s.groups with
  | none => .error full
  | some id =>
    if (s.groupNamed? name).isSome then .error .duplicate
    else
      let g : Group := ⟨id, name⟩
      .ok (g, { s with groups := Table.insert g s.groups })

/-- Renames a group, if there is one with the identifier. -/
def renameGroup (id : Id) (name : String) (s : Store) : Call (Option Group) :=
  match s.group? id with
  | none => .ok (none, s)
  | some g =>
    if s.groupTakenBeside id name then .error .duplicate
    else .ok (some { g with name }, { s with
      groups := Table.update id (fun g => { g with name }) s.groups })

/-- Deletes a group with its grants and memberships.  Says whether there was
one. -/
def deleteGroup (id : Id) (s : Store) : Bool × Store :=
  (Table.has id s.groups, { s with
    groups := Table.erase id s.groups
    groupGrants := s.groupGrants.filter (·.holder ≠ id)
    memberships := s.memberships.filter (·.group ≠ id) })

/-- Makes a user a member of a group.  Says whether it was none before. -/
def addMember (group user : Id) (s : Store) : Call Bool :=
  if Table.has group s.groups && Table.has user s.users then
    .ok (!s.memberships.contains ⟨group, user⟩,
      { s with memberships := link ⟨group, user⟩ s.memberships })
  else .error .dangling

def removeMember (group user : Id) (s : Store) : Bool × Store :=
  let (found, memberships) := unlink ⟨group, user⟩ s.memberships
  (found, { s with memberships })

/-- Grants an authority to the members of a group.  A repeated grant changes
nothing. -/
def grantGroup (group authority : Id) (s : Store) : Call Unit :=
  if Table.has group s.groups && Table.has authority s.authorities then
    .ok ((), { s with groupGrants := link ⟨group, authority⟩ s.groupGrants })
  else .error .dangling

def revokeGroup (group authority : Id) (s : Store) : Bool × Store :=
  let (found, grants) := unlink ⟨group, authority⟩ s.groupGrants
  (found, { s with groupGrants := grants })

end Store
end BotFleet
