import BotFleet.Store.Groups
import BotFleet.Store.Instances
import BotFleet.Store.Users

/-
Stores without their passwords.

The veil takes the passwords of accounts and instances out of a store and leaves
everything else in its place.  No call on a store looks at a password, so a call on a
veiled store does what the call does on the store itself, with the veil over whatever
it yields.
-/

namespace BotFleet

/-! ## Tables -/

namespace Table

variable {α : Type} [Row α] {change : α → α}

section Map

variable (hkey : ∀ r, Row.key (change r) = Row.key r)

include hkey

theorem find?_map (id : Id) (rows : List α) :
    find? id (rows.map change) = (find? id rows).map change := by
  have hpred : ((fun r => Row.key r == id) ∘ change) = fun r => Row.key r == id := by
    funext r
    exact congrArg (· == id) (hkey r)
  rw [find?, List.find?_map, hpred]
  rfl

theorem has_map (id : Id) (rows : List α) : has id (rows.map change) = has id rows := by
  rw [has, find?_map hkey, Option.isSome_map]
  rfl

theorem map_insert (row : α) (rows : List α) :
    (insert row rows).map change = insert (change row) (rows.map change) := by
  induction rows with
  | nil => rfl
  | cons r rows ih =>
    rw [insert, List.map_cons, insert, hkey, hkey]
    by_cases hlt : Row.key row < Row.key r
    · rw [if_pos hlt, if_pos hlt]
      rfl
    · rw [if_neg hlt, if_neg hlt, List.map_cons, ih]

theorem map_erase (id : Id) (rows : List α) :
    (erase id rows).map change = erase id (rows.map change) := by
  have hpred : ((fun r => Row.key r != id) ∘ change) = fun r => Row.key r != id := by
    funext r
    exact congrArg (· != id) (hkey r)
  rw [erase, erase, List.filter_map, hpred]

theorem map_update {edit edit' : α → α} (hedit : ∀ r, change (edit r) = edit' (change r)) (id : Id)
    (rows : List α) : (update id edit rows).map change = update id edit' (rows.map change) := by
  rw [update, update, List.map_map, List.map_map]
  refine List.map_congr_left fun r _ => ?_
  simp only [Function.comp_apply, hkey]
  split
  · exact hedit r
  · rfl

theorem nextId?_map (rows : List α) : nextId? (rows.map change) = nextId? rows := by
  have hhas : (fun id => !has id (rows.map change)) = fun id => !has id rows := by
    funext id
    rw [has_map hkey]
  have hfree : freeId? (rows.map change) = freeId? rows := by
    rw [freeId?, freeId?, List.length_map, hhas]
  cases rows with
  | nil => rfl
  | cons r rest =>
    rw [List.map_cons] at hfree ⊢
    simp only [nextId?, List.foldl_map, hkey, hfree]

end Map

end Table

/-! ## The veil -/

namespace User

def veiled (u : User) : User := { u with password := "" }

theorem key_veiled (u : User) : Row.key u.veiled = Row.key u := rfl

/-- What is written of an account is the same without the password. -/
theorem toJson_veiled (u : User) : Json.Message.toJson u.veiled = Json.Message.toJson u := rfl

end User

def Settings.veiled (s : Settings) : Settings := { s with password := none }

namespace Instance

def veiled (i : Instance) : Instance := { i with settings := i.settings.veiled }

theorem key_veiled (i : Instance) : Row.key i.veiled = Row.key i := rfl

theorem toJson_veiled (i : Instance) : Json.Message.toJson i.veiled = Json.Message.toJson i := rfl

end Instance

namespace Store

def UserChanges.veiled (c : UserChanges) : UserChanges := { c with password := none }

theorem UserChanges.veiled_apply (c : UserChanges) (u : User) :
    (c.apply u).veiled = c.veiled.apply u.veiled := rfl

theorem veiled_resettle (settings : Settings) (i : Instance) :
    (resettle settings i).veiled = resettle settings.veiled i.veiled := rfl

def veiled (s : Store) : Store :=
  { s with users := s.users.map User.veiled, instances := s.instances.map Instance.veiled }

variable (s : Store)

/-! ## Reading -/

theorem user?_veiled (id : Id) : s.veiled.user? id = (s.user? id).map User.veiled :=
  Table.find?_map User.key_veiled id s.users

theorem userNamed?_veiled (name : String) :
    s.veiled.userNamed? name = (s.userNamed? name).map User.veiled := by
  rw [userNamed?, veiled, List.find?_map]
  rfl

theorem nameTakenBeside_veiled (id : Id) (name : String) :
    s.veiled.nameTakenBeside id name = s.nameTakenBeside id name := by
  rw [nameTakenBeside, veiled, List.any_map]
  rfl

theorem instance?_veiled (id : Id) : s.veiled.instance? id = (s.instance? id).map Instance.veiled :=
  Table.find?_map Instance.key_veiled id s.instances

/-! ## Writing

Every call on a veiled store yields, with the veil over it, what the call yields on the
store, so stores that are alike under the veil stay so. -/

theorem addUser_veiled (u : User) (authority : Id) :
    s.veiled.addUser u.veiled authority =
      (s.addUser u authority).map (Prod.map User.veiled veiled) := by
  have hhas : Table.has u.veiled.id s.veiled.users = Table.has u.id s.users :=
    Table.has_map User.key_veiled u.id s.users
  have hname : (s.veiled.userNamed? u.veiled.username).isSome =
      (s.userNamed? u.username).isSome := by
    rw [userNamed?_veiled, Option.isSome_map]
    rfl
  have hinsert : (Table.insert u s.users).map User.veiled =
      Table.insert u.veiled s.veiled.users :=
    Table.map_insert User.key_veiled u s.users
  rw [addUser, addUser, hhas, hname]
  split
  · rfl
  · show (if !Table.has authority s.authorities then _ else _) = _
    split
    · rfl
    · simp only [Except.map, Prod.map, veiled, hinsert]
      rfl

theorem createUser_veiled (name hash : String) (enabled : Bool) (now : Instant) :
    s.veiled.createUser name "" enabled now =
      (s.createUser name hash enabled now).map (Prod.map User.veiled veiled) := by
  have hnext : Table.nextId? s.veiled.users = Table.nextId? s.users :=
    Table.nextId?_map User.key_veiled s.users
  rw [createUser, createUser, hnext]
  cases Table.nextId? s.users with
  | none => rfl
  | some id => exact addUser_veiled s ⟨id, name, enabled, hash, now⟩ userAuthority.id

theorem updateUser_veiled (id : Id) (c : UserChanges) :
    s.veiled.updateUser id c.veiled =
      (s.updateUser id c).map (Prod.map (Option.map User.veiled) veiled) := by
  have hupdate : (Table.update id c.apply s.users).map User.veiled =
      Table.update id c.veiled.apply s.veiled.users :=
    Table.map_update User.key_veiled c.veiled_apply id s.users
  rw [updateUser, updateUser, user?_veiled]
  cases s.user? id with
  | none => rfl
  | some u =>
    have htaken : s.veiled.nameTakenBeside id (c.veiled.apply u.veiled).username =
        s.nameTakenBeside id (c.apply u).username :=
      nameTakenBeside_veiled s id _
    simp only [Option.map_some, htaken]
    split
    · rfl
    · simp only [Except.map, Prod.map, veiled, hupdate, Option.map_some, c.veiled_apply]

theorem deleteUser_veiled (user : Id) :
    s.veiled.deleteUser user = Prod.map id veiled (s.deleteUser user) := by
  have hhas : Table.has user s.veiled.users = Table.has user s.users :=
    Table.has_map User.key_veiled user s.users
  have herase : (Table.erase user s.users).map User.veiled = Table.erase user s.veiled.users :=
    Table.map_erase User.key_veiled user s.users
  rw [deleteUser, hhas]
  simp only [deleteUser, Prod.map, veiled, herase, id_eq]

theorem grantUser_veiled (user authority : Id) :
    s.veiled.grantUser user authority =
      (s.grantUser user authority).map (Prod.map id veiled) := by
  have hhas : Table.has user s.veiled.users = Table.has user s.users :=
    Table.has_map User.key_veiled user s.users
  rw [grantUser, grantUser, hhas]
  show (if (_ && Table.has authority s.authorities) = true then _ else _) = _
  split <;> rfl

theorem revokeUser_veiled (user authority : Id) :
    s.veiled.revokeUser user authority = Prod.map id veiled (s.revokeUser user authority) := rfl

theorem createGroup_veiled (name : String) :
    s.veiled.createGroup name = (s.createGroup name).map (Prod.map id veiled) := by
  have hnext : Table.nextId? s.veiled.groups = Table.nextId? s.groups := rfl
  have hname : s.veiled.groupNamed? name = s.groupNamed? name := rfl
  rw [createGroup, createGroup, hnext, hname]
  cases Table.nextId? s.groups with
  | none => rfl
  | some group =>
    dsimp only
    split <;> rfl

theorem renameGroup_veiled (group : Id) (name : String) :
    s.veiled.renameGroup group name = (s.renameGroup group name).map (Prod.map id veiled) := by
  have hgroup : s.veiled.group? group = s.group? group := rfl
  have htaken : s.veiled.groupTakenBeside group name = s.groupTakenBeside group name := rfl
  rw [renameGroup, renameGroup, hgroup, htaken]
  cases s.group? group with
  | none => rfl
  | some g =>
    dsimp only
    split <;> rfl

theorem deleteGroup_veiled (group : Id) :
    s.veiled.deleteGroup group = Prod.map id veiled (s.deleteGroup group) := rfl

theorem addMember_veiled (group user : Id) :
    s.veiled.addMember group user = (s.addMember group user).map (Prod.map id veiled) := by
  have hhas : Table.has user s.veiled.users = Table.has user s.users :=
    Table.has_map User.key_veiled user s.users
  rw [addMember, addMember, hhas]
  show (if (Table.has group s.groups && _) = true then _ else _) = _
  split <;> rfl

theorem removeMember_veiled (group user : Id) :
    s.veiled.removeMember group user = Prod.map id veiled (s.removeMember group user) := rfl

theorem grantGroup_veiled (group authority : Id) :
    s.veiled.grantGroup group authority =
      (s.grantGroup group authority).map (Prod.map id veiled) := by
  rw [grantGroup, grantGroup]
  show (if (Table.has group s.groups && Table.has authority s.authorities) = true then _ else _) = _
  split <;> rfl

theorem revokeGroup_veiled (group authority : Id) :
    s.veiled.revokeGroup group authority = Prod.map id veiled (s.revokeGroup group authority) := rfl

theorem createInstance_veiled (settings : Settings) :
    s.veiled.createInstance settings.veiled =
      (s.createInstance settings).map (Prod.map Instance.veiled veiled) := by
  have hnext : Table.nextId? s.veiled.instances = Table.nextId? s.instances :=
    Table.nextId?_map Instance.key_veiled s.instances
  rw [createInstance, createInstance, hnext]
  cases Table.nextId? s.instances with
  | none => rfl
  | some key =>
    have hinsert : (Table.insert ⟨key, settings⟩ s.instances).map Instance.veiled =
        Table.insert ⟨key, settings.veiled⟩ s.veiled.instances :=
      Table.map_insert Instance.key_veiled ⟨key, settings⟩ s.instances
    simp only [Except.map, Prod.map, veiled, hinsert]
    rfl

theorem updateInstance_veiled (key : Id) (settings : Settings) :
    s.veiled.updateInstance key settings.veiled =
      Prod.map (Option.map Instance.veiled) veiled (s.updateInstance key settings) := by
  have hupdate : (Table.update key (resettle settings) s.instances).map Instance.veiled =
      Table.update key (resettle settings.veiled) s.veiled.instances :=
    Table.map_update Instance.key_veiled (veiled_resettle settings) key s.instances
  rw [updateInstance, updateInstance, instance?_veiled]
  cases s.instance? key with
  | none => rfl
  | some i => simp only [Option.map_some, Prod.map, veiled, hupdate, veiled_resettle]

theorem deleteInstance_veiled (key : Id) :
    s.veiled.deleteInstance key = Prod.map id veiled (s.deleteInstance key) := by
  have hhas : Table.has key s.veiled.instances = Table.has key s.instances :=
    Table.has_map Instance.key_veiled key s.instances
  have herase : (Table.erase key s.instances).map Instance.veiled =
      Table.erase key s.veiled.instances :=
    Table.map_erase Instance.key_veiled key s.instances
  rw [deleteInstance, hhas]
  simp only [deleteInstance, Prod.map, veiled, herase, id_eq]

end Store
end BotFleet
