import BotFleet.Proofs.Store.Table
import BotFleet.Store.Groups
import BotFleet.Store.Instances
import BotFleet.Store.Users

/-
What calls on the store yield when they succeed.

One lemma for each call that can fail says under which conditions it succeeds and
which store it leaves behind.  Whatever is shown about the store afterwards is
shown through these.
-/

namespace BotFleet
namespace Store

variable {s s' : Store}

/-! ## Accounts -/

theorem userNamed?_eq_none_iff {name : String} :
    s.userNamed? name = none ↔ ∀ u ∈ s.users, u.username ≠ name := by
  simp [userNamed?]

theorem mem_of_userNamed? {name : String} {u : User} (h : s.userNamed? name = some u) :
    u ∈ s.users ∧ u.username = name := by
  have hname := List.find?_some h
  exact ⟨List.mem_of_find?_eq_some h, beq_iff_eq.mp hname⟩

theorem addUser_eq_ok_iff {u v : User} {authority : Id} :
    s.addUser u authority = .ok (v, s') ↔
      Table.has u.id s.users = false ∧ s.userNamed? u.username = none ∧
        Table.has authority s.authorities = true ∧ v = u ∧
        s' = { s with
          users := Table.insert u s.users
          userGrants := link ⟨u.id, authority⟩ s.userGrants } := by
  unfold addUser
  cases hid : Table.has u.id s.users
  · cases hname : s.userNamed? u.username
    · cases hauth : Table.has authority s.authorities
      · simp
      · simp [eq_comm]
    · simp
  · simp

/-- A new account has an identifier that no account had before. -/
theorem createUser_eq_ok {name hash : String} {enabled : Bool} {now : Instant} {v : User}
    (h : s.createUser name hash enabled now = .ok (v, s')) :
    ∃ id, Table.nextId? s.users = some id ∧ Table.has id s.users = false ∧
      s.userNamed? name = none ∧ Table.has userAuthority.id s.authorities = true ∧
      v = ⟨id, name, enabled, hash, now⟩ ∧
      s' = { s with
        users := Table.insert v s.users
        userGrants := link ⟨id, userAuthority.id⟩ s.userGrants } := by
  unfold createUser at h
  split at h
  · cases h
  · rename_i id hid
    obtain ⟨hfresh, hname, hauth, rfl, rfl⟩ := addUser_eq_ok_iff.mp h
    exact ⟨id, hid, hfresh, hname, hauth, rfl, rfl⟩

theorem updateUser_eq_ok_some {id : Id} {c : UserChanges} {v : User}
    (h : s.updateUser id c = .ok (some v, s')) :
    ∃ u, s.user? id = some u ∧ s.nameTakenBeside id (c.apply u).username = false ∧
      v = c.apply u ∧ s' = { s with users := Table.update id c.apply s.users } := by
  unfold updateUser at h
  split at h
  · cases h
  · rename_i u hu
    split at h
    · cases h
    · rename_i htaken
      cases h
      exact ⟨u, hu, Bool.eq_false_iff.mpr htaken, rfl, rfl⟩

theorem updateUser_eq_ok_none {id : Id} {c : UserChanges}
    (h : s.updateUser id c = .ok (none, s')) : s.user? id = none ∧ s' = s := by
  unfold updateUser at h
  split at h
  · rename_i hu
    cases h
    exact ⟨hu, rfl⟩
  · split at h <;> cases h

theorem grantUser_eq_ok {user authority : Id} {x : Unit}
    (h : s.grantUser user authority = .ok (x, s')) :
    Table.has user s.users = true ∧ Table.has authority s.authorities = true ∧
      s' = { s with userGrants := link ⟨user, authority⟩ s.userGrants } := by
  unfold grantUser at h
  split at h
  · rename_i hboth
    cases h
    exact ⟨(Bool.and_eq_true_iff.mp hboth).1, (Bool.and_eq_true_iff.mp hboth).2, rfl⟩
  · cases h

theorem revokeUser_snd (user authority : Id) (s : Store) :
    (s.revokeUser user authority).2 =
      { s with userGrants := (unlink ⟨user, authority⟩ s.userGrants).2 } := rfl

/-! ## Groups -/

theorem groupNamed?_eq_none_iff {name : String} :
    s.groupNamed? name = none ↔ ∀ g ∈ s.groups, g.name ≠ name := by
  simp [groupNamed?]

theorem createGroup_eq_ok {name : String} {g : Group} (h : s.createGroup name = .ok (g, s')) :
    ∃ id, Table.nextId? s.groups = some id ∧ Table.has id s.groups = false ∧
      s.groupNamed? name = none ∧ g = ⟨id, name⟩ ∧
      s' = { s with groups := Table.insert g s.groups } := by
  unfold createGroup at h
  split at h
  · cases h
  · rename_i id hid
    split at h
    · cases h
    · rename_i hname
      cases h
      refine ⟨id, hid, Table.not_has_of_nextId? hid, ?_, rfl, rfl⟩
      simpa using hname

theorem renameGroup_eq_ok_some {id : Id} {name : String} {v : Group}
    (h : s.renameGroup id name = .ok (some v, s')) :
    ∃ g, s.group? id = some g ∧ s.groupTakenBeside id name = false ∧ v = { g with name } ∧
      s' = { s with groups := Table.update id (fun g => { g with name }) s.groups } := by
  unfold renameGroup at h
  split at h
  · cases h
  · rename_i g hg
    split at h
    · cases h
    · rename_i htaken
      cases h
      exact ⟨g, hg, Bool.eq_false_iff.mpr htaken, rfl, rfl⟩

theorem renameGroup_eq_ok_none {id : Id} {name : String}
    (h : s.renameGroup id name = .ok (none, s')) : s.group? id = none ∧ s' = s := by
  unfold renameGroup at h
  split at h
  · rename_i hg
    cases h
    exact ⟨hg, rfl⟩
  · split at h <;> cases h

theorem addMember_eq_ok {group user : Id} {added : Bool}
    (h : s.addMember group user = .ok (added, s')) :
    Table.has group s.groups = true ∧ Table.has user s.users = true ∧
      added = !s.memberships.contains ⟨group, user⟩ ∧
      s' = { s with memberships := link ⟨group, user⟩ s.memberships } := by
  unfold addMember at h
  split at h
  · rename_i hboth
    cases h
    exact ⟨(Bool.and_eq_true_iff.mp hboth).1, (Bool.and_eq_true_iff.mp hboth).2, rfl, rfl⟩
  · cases h

theorem grantGroup_eq_ok {group authority : Id} {x : Unit}
    (h : s.grantGroup group authority = .ok (x, s')) :
    Table.has group s.groups = true ∧ Table.has authority s.authorities = true ∧
      s' = { s with groupGrants := link ⟨group, authority⟩ s.groupGrants } := by
  unfold grantGroup at h
  split at h
  · rename_i hboth
    cases h
    exact ⟨(Bool.and_eq_true_iff.mp hboth).1, (Bool.and_eq_true_iff.mp hboth).2, rfl⟩
  · cases h

/-! ## Instances -/

theorem createInstance_eq_ok {settings : Settings} {i : Instance}
    (h : s.createInstance settings = .ok (i, s')) :
    ∃ id, Table.nextId? s.instances = some id ∧ Table.has id s.instances = false ∧
      i = ⟨id, settings⟩ ∧ s' = { s with instances := Table.insert i s.instances } := by
  unfold createInstance at h
  split at h
  · cases h
  · rename_i id hid
    cases h
    exact ⟨id, hid, Table.not_has_of_nextId? hid, rfl, rfl⟩

theorem updateInstance_eq_some {id : Id} {settings : Settings} {v : Instance}
    (h : s.updateInstance id settings = (some v, s')) :
    ∃ i, s.instance? id = some i ∧ v = resettle settings i ∧
      s' = { s with instances := Table.update id (resettle settings) s.instances } := by
  unfold updateInstance at h
  split at h
  · cases h
  · rename_i i hi
    cases h
    exact ⟨i, hi, rfl, rfl⟩

theorem updateInstance_eq_none {id : Id} {settings : Settings}
    (h : s.updateInstance id settings = (none, s')) : s.instance? id = none ∧ s' = s := by
  unfold updateInstance at h
  split at h
  · rename_i hi
    cases h
    exact ⟨hi, rfl⟩
  · cases h

end Store
end BotFleet
