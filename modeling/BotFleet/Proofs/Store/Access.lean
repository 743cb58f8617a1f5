import Mathlib.Data.List.Nodup
import BotFleet.Proofs.Store.Integrity
import BotFleet.Proofs.Text.Utf8

/-
Histories of a store.

`Access` has one constructor for each call that writes, and `Access.run` is the store that
the call leaves behind, which is the one before it if the call fails.  Calls that only read
yield no store, so they have no place in a history.

The theorem this file exists for is `intact_after`: after any history of the first store no
identifier, no name and no pair occurs twice, and no pair refers to a row that is missing.
Soundness says the same of a store in terms of its functions, and each call keeps it.
-/

namespace BotFleet
namespace Store

inductive Access where
  | createUser (name hash : String) (enabled : Bool) (now : Instant)
  | createUserWithId (id : Id) (name hash : String) (authority : Id) (now : Instant)
  | updateUser (id : Id) (changes : UserChanges)
  | deleteUser (id : Id)
  | grantUser (user authority : Id)
  | revokeUser (user authority : Id)
  | createGroup (name : String)
  | renameGroup (id : Id) (name : String)
  | deleteGroup (id : Id)
  | addMember (group user : Id)
  | removeMember (group user : Id)
  | grantGroup (group authority : Id)
  | revokeGroup (group authority : Id)
  | createInstance (settings : Settings)
  | updateInstance (id : Id) (settings : Settings)
  | deleteInstance (id : Id)
deriving DecidableEq

namespace Access

/-- The store that a call yields, or the fault with which it fails. -/
def outcome (s : Store) : Access → Except Fault Store
  | .createUser name hash enabled now => (s.createUser name hash enabled now).map (·.2)
  | .createUserWithId id name hash authority now =>
    (s.createUserWithId id name hash authority now).map (·.2)
  | .updateUser id changes => (s.updateUser id changes).map (·.2)
  | .deleteUser id => .ok (s.deleteUser id).2
  | .grantUser user authority => (s.grantUser user authority).map (·.2)
  | .revokeUser user authority => .ok (s.revokeUser user authority).2
  | .createGroup name => (s.createGroup name).map (·.2)
  | .renameGroup id name => (s.renameGroup id name).map (·.2)
  | .deleteGroup id => .ok (s.deleteGroup id).2
  | .addMember group user => (s.addMember group user).map (·.2)
  | .removeMember group user => .ok (s.removeMember group user).2
  | .grantGroup group authority => (s.grantGroup group authority).map (·.2)
  | .revokeGroup group authority => .ok (s.revokeGroup group authority).2
  | .createInstance settings => (s.createInstance settings).map (·.2)
  | .updateInstance id settings => .ok (s.updateInstance id settings).2
  | .deleteInstance id => .ok (s.deleteInstance id).2

def run (s : Store) (a : Access) : Store :=
  match a.outcome s with
  | .ok after => after
  | .error _ => s

/-- What is shown of the stores that a call can yield holds of the store it leaves behind. -/
theorem run_keeps {P : Store → Prop} {s : Store} {a : Access} (hs : P s)
    (hok : ∀ after, a.outcome s = .ok after → P after) : P (a.run s) := by
  unfold run
  split
  · rename_i after hafter
    exact hok after hafter
  · exact hs

end Access

def after (s : Store) (history : List Access) : Store := history.foldl Access.run s

variable {s s' : Store}

theorem after_append (s : Store) (history later : List Access) :
    s.after (history ++ later) = (s.after history).after later :=
  List.foldl_append

/-- What every access keeps, every history keeps. -/
theorem after_keeps {P : Store → Prop} {history : List Access} (hs : P s)
    (hrun : ∀ s, ∀ a ∈ history, P s → P (a.run s)) : P (s.after history) :=
  List.foldlRecOn history Access.run hs fun s hs a ha => hrun s a ha hs

/-! ## Accounts are added in two steps -/

/-- Adds a row to the table of accounts. -/
def insertUser (u : User) (s : Store) : Except Fault Store :=
  if Table.has u.id s.users || (s.userNamed? u.username).isSome then .error .duplicate
  else .ok { s with users := Table.insert u s.users }

/-- Adds a pair to the grants of accounts, which must not be there yet. -/
def insertGrant (g : Grant) (s : Store) : Except Fault Store :=
  if g ∈ s.userGrants then .error .duplicate
  else if Table.has g.holder s.users && Table.has g.authority s.authorities then
    .ok { s with userGrants := s.userGrants ++ [g] }
  else .error .dangling

/-- Nothing was granted to an account that does not exist. -/
theorem Sound.not_mem_userGrants (h : s.Sound) {id : Id} (hid : Table.has id s.users = false)
    (authority : Id) : ⟨id, authority⟩ ∉ s.userGrants := by
  intro hg
  have hhas := (h.userGrant_refers _ hg).1
  rw [hid] at hhas
  cases hhas

/-- An account is added row first and then its grant.  If the second step fails, the first
one is not kept either. -/
theorem addUser_eq_bind (h : s.Sound) (u : User) (authority : Id) :
    s.addUser u authority =
      (do
        let inserted ← s.insertUser u
        let granted ← inserted.insertGrant ⟨u.id, authority⟩
        return (u, granted) : Except Fault (User × Store)) := by
  unfold addUser insertUser
  cases htaken : Table.has u.id s.users || (s.userNamed? u.username).isSome with
  | true => rfl
  | false =>
    have hnew := h.not_mem_userGrants (Bool.or_eq_false_iff.mp htaken).1 authority
    have hhas : Table.has u.id (Table.insert u s.users) = true :=
      Table.has_insert.mpr (.inl rfl)
    show _ = (insertGrant _ { s with users := Table.insert u s.users }).map fun granted => (u, granted)
    simp only [insertGrant, if_neg hnew, hhas, Bool.true_and, link]
    cases Table.has authority s.authorities <;> rfl

/-! ## What every access keeps -/

theorem Sound.outcome {a : Access} (h : s.Sound) (ha : a.outcome s = .ok s') : s'.Sound := by
  cases a with
  | createUser name hash enabled now =>
    obtain ⟨⟨u, after⟩, hcall, rfl⟩ := Json.map_eq_ok ha
    exact h.createUser hcall
  | createUserWithId id name hash authority now =>
    obtain ⟨⟨u, after⟩, hcall, rfl⟩ := Json.map_eq_ok ha
    exact h.addUser hcall
  | updateUser id changes =>
    obtain ⟨⟨_ | u, after⟩, hcall, rfl⟩ := Json.map_eq_ok ha
    · rw [(updateUser_eq_ok_none hcall).2]
      exact h
    · exact h.updateUser hcall
  | deleteUser id =>
    cases ha
    exact h.deleteUser id
  | grantUser user authority =>
    obtain ⟨⟨x, after⟩, hcall, rfl⟩ := Json.map_eq_ok ha
    exact h.grantUser hcall
  | revokeUser user authority =>
    cases ha
    exact h.revokeUser user authority
  | createGroup name =>
    obtain ⟨⟨g, after⟩, hcall, rfl⟩ := Json.map_eq_ok ha
    exact h.createGroup hcall
  | renameGroup id name =>
    obtain ⟨⟨_ | g, after⟩, hcall, rfl⟩ := Json.map_eq_ok ha
    · rw [(renameGroup_eq_ok_none hcall).2]
      exact h
    · exact h.renameGroup hcall
  | deleteGroup id =>
    cases ha
    exact h.deleteGroup id
  | addMember group user =>
    obtain ⟨⟨added, after⟩, hcall, rfl⟩ := Json.map_eq_ok ha
    exact h.addMember hcall
  | removeMember group user =>
    cases ha
    exact h.removeMember group user
  | grantGroup group authority =>
    obtain ⟨⟨x, after⟩, hcall, rfl⟩ := Json.map_eq_ok ha
    exact h.grantGroup hcall
  | revokeGroup group authority =>
    cases ha
    exact h.revokeGroup group authority
  | createInstance settings =>
    obtain ⟨⟨i, after⟩, hcall, rfl⟩ := Json.map_eq_ok ha
    exact h.createInstance hcall
  | updateInstance id settings =>
    cases ha
    rcases hcall : s.updateInstance id settings with ⟨_ | i, after⟩
    · rw [(updateInstance_eq_none hcall).2]
      exact h
    · exact h.updateInstance hcall
  | deleteInstance id =>
    cases ha
    exact h.deleteInstance id

theorem Sound.run (h : s.Sound) (a : Access) : (a.run s).Sound :=
  Access.run_keeps h fun _ => h.outcome

theorem Sound.after (h : s.Sound) (history : List Access) : (s.after history).Sound :=
  after_keeps h fun _ a _ hs => hs.run a

/-! ## Integrity -/

/-- No row and no pair can be mistaken for another one, and no pair refers to a row that is
missing.  Names are compared byte by byte. -/
structure Intact (s : Store) : Prop where
  authorities : s.authorities = [⟨⟨-1, by decide⟩, "ROLE_USER"⟩, ⟨⟨0, by decide⟩, "ROLE_ADMIN"⟩]
  userIds : (s.users.map (·.id)).Nodup
  groupIds : (s.groups.map (·.id)).Nodup
  authorityIds : (s.authorities.map (·.id)).Nodup
  instanceIds : (s.instances.map (·.id)).Nodup
  usernames : (s.users.map fun u => Utf8.encode u.username.toList).Nodup
  groupNames : (s.groups.map fun g => Utf8.encode g.name.toList).Nodup
  userGrants : s.userGrants.Nodup
  groupGrants : s.groupGrants.Nodup
  memberships : s.memberships.Nodup
  userGrant_rows : ∀ g ∈ s.userGrants,
    (∃ u ∈ s.users, u.id = g.holder) ∧ ∃ a ∈ s.authorities, a.id = g.authority
  groupGrant_rows : ∀ g ∈ s.groupGrants,
    (∃ x ∈ s.groups, x.id = g.holder) ∧ ∃ a ∈ s.authorities, a.id = g.authority
  membership_rows : ∀ m ∈ s.memberships,
    (∃ x ∈ s.groups, x.id = m.group) ∧ ∃ u ∈ s.users, u.id = m.user

/-- Names that are told apart at all are told apart by their bytes. -/
theorem nodup_bytes {α : Type} {rows : List α} {name : α → String} (h : (rows.map name).Nodup) :
    (rows.map fun r => Utf8.encode (name r).toList).Nodup := by
  have hinjective : Function.Injective fun text : String => Utf8.encode text.toList :=
    fun _ _ heq => String.toList_inj.mp (Utf8.encode_inj.mp heq)
  have hbytes := h.map hinjective
  rwa [List.map_map] at hbytes

theorem Sound.intact (h : s.Sound) : s.Intact where
  authorities := h.authorities
  userIds := Table.nodup_keys h.users
  groupIds := Table.nodup_keys h.groups
  authorityIds := by
    rw [h.authorities]
    decide
  instanceIds := Table.nodup_keys h.instances
  usernames := nodup_bytes h.usernames
  groupNames := nodup_bytes h.groupNames
  userGrants := h.userGrants
  groupGrants := h.groupGrants
  memberships := h.memberships
  userGrant_rows g hg :=
    ⟨Table.has_iff.mp (h.userGrant_refers g hg).1, Table.has_iff.mp (h.userGrant_refers g hg).2⟩
  groupGrant_rows g hg :=
    ⟨Table.has_iff.mp (h.groupGrant_refers g hg).1, Table.has_iff.mp (h.groupGrant_refers g hg).2⟩
  membership_rows m hm :=
    ⟨Table.has_iff.mp (h.membership_refers m hm).1, Table.has_iff.mp (h.membership_refers m hm).2⟩

/-- Whatever calls have succeeded and failed since, the first store has stayed intact. -/
theorem intact_after (history : List Access) : (fresh.after history).Intact :=
  (Sound.fresh.after history).intact

end Store
end BotFleet
