import BotFleet.Proofs.Bootstrap

/-
The integrity of a store.

A store is sound if its tables are sorted, no two accounts and no two groups share
a name, no relation holds a pair twice, and every pair refers to rows that exist.
The store with the two authorities and nothing else is sound, and every call
keeps a sound store sound.
-/

namespace BotFleet
namespace Store

structure Sound (s : Store) : Prop where
  users : Table.Sorted s.users
  groups : Table.Sorted s.groups
  instances : Table.Sorted s.instances
  authorities : s.authorities = [userAuthority, adminAuthority]
  usernames : (s.users.map (·.username)).Nodup
  groupNames : (s.groups.map (·.name)).Nodup
  userGrants : s.userGrants.Nodup
  groupGrants : s.groupGrants.Nodup
  memberships : s.memberships.Nodup
  userGrant_refers : ∀ g ∈ s.userGrants,
    Table.has g.holder s.users = true ∧ Table.has g.authority s.authorities = true
  groupGrant_refers : ∀ g ∈ s.groupGrants,
    Table.has g.holder s.groups = true ∧ Table.has g.authority s.authorities = true
  membership_refers : ∀ m ∈ s.memberships,
    Table.has m.group s.groups = true ∧ Table.has m.user s.users = true

theorem nodup_link {α : Type} [DecidableEq α] {pair : α} {pairs : List α} (h : pairs.Nodup) :
    (link pair pairs).Nodup := by
  unfold link
  split
  · exact h
  · rename_i hnew
    rw [List.nodup_append]
    refine ⟨h, List.pairwise_singleton _ _, ?_⟩
    intro a ha b hb he
    rw [List.mem_singleton.mp hb] at he
    exact hnew (he ▸ ha)

theorem nodup_unlink {α : Type} [DecidableEq α] {pair : α} {pairs : List α} (h : pairs.Nodup) :
    (unlink pair pairs).2.Nodup :=
  h.filter _

/-- Pairs that hold of all of a relation and of a new pair hold of the relation
with the pair added. -/
theorem forall_mem_link {α : Type} [DecidableEq α] {p : α → Prop} {pair : α} {pairs : List α}
    (hp : p pair) (h : ∀ x ∈ pairs, p x) : ∀ x ∈ link pair pairs, p x := by
  intro x hx
  rcases (mem_link pair x pairs).mp hx with rfl | hx
  · exact hp
  · exact h x hx

namespace Sound

variable {s s' : Store}

theorem fresh : Sound Store.fresh where
  users := List.Pairwise.nil
  groups := List.Pairwise.nil
  instances := List.Pairwise.nil
  authorities := rfl
  usernames := List.nodup_nil
  groupNames := List.nodup_nil
  userGrants := List.nodup_nil
  groupGrants := List.nodup_nil
  memberships := List.nodup_nil
  userGrant_refers := fun _ hg => nomatch hg
  groupGrant_refers := fun _ hg => nomatch hg
  membership_refers := fun _ hm => nomatch hm

/-! ## Accounts -/

theorem addUser {u v : User} {authority : Id} (h : s.Sound)
    (hc : s.addUser u authority = .ok (v, s')) : s'.Sound := by
  obtain ⟨hfresh, hname, hauth, rfl, rfl⟩ := addUser_eq_ok_iff.mp hc
  have hkeep : ∀ id, Table.has id s.users = true →
      Table.has id (Table.insert v s.users) = true :=
    fun id hid => Table.has_insert.mpr (.inr hid)
  refine { h with
    users := Table.sorted_insert h.users hfresh
    usernames := Table.nodup_insert h.usernames (userNamed?_eq_none_iff.mp hname)
    userGrants := nodup_link h.userGrants
    userGrant_refers := ?_
    membership_refers := ?_ }
  · refine forall_mem_link ⟨Table.has_insert.mpr (.inl rfl), hauth⟩ ?_
    intro g hg
    exact ⟨hkeep _ (h.userGrant_refers g hg).1, (h.userGrant_refers g hg).2⟩
  · intro m hm
    exact ⟨(h.membership_refers m hm).1, hkeep _ (h.membership_refers m hm).2⟩

theorem createUser {name hash : String} {enabled : Bool} {now : Instant} {v : User} (h : s.Sound)
    (hc : s.createUser name hash enabled now = .ok (v, s')) : s'.Sound := by
  unfold Store.createUser at hc
  split at hc
  · cases hc
  · exact h.addUser hc

theorem ensureRoot {scheme : Password.Scheme} {cost : Cost} {now : Instant}
    {chance : Bootstrap.Chance} {password : Option String} (h : s.Sound)
    (hc : Bootstrap.ensureRoot scheme cost now chance s = .ok (password, s')) : s'.Sound := by
  rcases Bootstrap.ensureRoot_eq_ok hc with ⟨u, -, -, rfl⟩ | ⟨-, -, hash, u, -, hadd⟩
  · exact h
  · exact h.addUser hadd

theorem updateUser {id : Id} {c : UserChanges} {v : User} (h : s.Sound)
    (hc : s.updateUser id c = .ok (some v, s')) : s'.Sound := by
  obtain ⟨u, hu, htaken, rfl, rfl⟩ := updateUser_eq_ok_some hc
  have hkey : ∀ r : User, Row.key (c.apply r) = Row.key r := fun _ => rfl
  have hhas := fun other => Table.has_update hkey id other s.users
  refine { h with
    users := Table.sorted_update hkey h.users
    usernames := Table.nodup_update h.users h.usernames ?_
    userGrant_refers := ?_
    membership_refers := ?_ }
  · intro r hr hid a ha hne
    have hru : r = u := Option.some.inj <|
      ((Table.find?_eq_some_iff h.users).mpr ⟨hr, hid⟩).symm.trans hu
    subst hru
    intro he
    refine Bool.eq_false_iff.mp htaken (List.any_eq_true.mpr ⟨a, ha, ?_⟩)
    simpa using ⟨hne, he⟩
  · intro g hg
    exact ⟨(hhas _).trans (h.userGrant_refers g hg).1, (h.userGrant_refers g hg).2⟩
  · intro m hm
    exact ⟨(h.membership_refers m hm).1, (hhas _).trans (h.membership_refers m hm).2⟩

theorem deleteUser (h : s.Sound) (id : Id) : (s.deleteUser id).2.Sound := by
  refine { h with
    users := Table.sorted_erase h.users
    usernames := Table.nodup_erase h.usernames
    userGrants := h.userGrants.filter _
    memberships := h.memberships.filter _
    userGrant_refers := ?_
    membership_refers := ?_ }
  · intro g hg
    obtain ⟨hm, hne⟩ := List.mem_filter.mp hg
    exact ⟨Table.has_erase.mpr ⟨of_decide_eq_true hne, (h.userGrant_refers g hm).1⟩,
      (h.userGrant_refers g hm).2⟩
  · intro m hm
    obtain ⟨hm, hne⟩ := List.mem_filter.mp hm
    exact ⟨(h.membership_refers m hm).1,
      Table.has_erase.mpr ⟨of_decide_eq_true hne, (h.membership_refers m hm).2⟩⟩

theorem grantUser {user authority : Id} {x : Unit} (h : s.Sound)
    (hc : s.grantUser user authority = .ok (x, s')) : s'.Sound := by
  obtain ⟨huser, hauth, rfl⟩ := grantUser_eq_ok hc
  exact { h with
    userGrants := nodup_link h.userGrants
    userGrant_refers := forall_mem_link ⟨huser, hauth⟩ h.userGrant_refers }

theorem revokeUser (h : s.Sound) (user authority : Id) : (s.revokeUser user authority).2.Sound :=
  { h with
    userGrants := nodup_unlink h.userGrants
    userGrant_refers := fun g hg => h.userGrant_refers g ((mem_unlink _ g _).mp hg).1 }

/-! ## Groups -/

theorem createGroup {name : String} {g : Group} (h : s.Sound)
    (hc : s.createGroup name = .ok (g, s')) : s'.Sound := by
  obtain ⟨id, -, hfresh, hname, rfl, rfl⟩ := createGroup_eq_ok hc
  have hkeep : ∀ other, Table.has other s.groups = true →
      Table.has other (Table.insert ⟨id, name⟩ s.groups) = true :=
    fun other hid => Table.has_insert.mpr (.inr hid)
  refine { h with
    groups := Table.sorted_insert h.groups hfresh
    groupNames := Table.nodup_insert h.groupNames (groupNamed?_eq_none_iff.mp hname)
    groupGrant_refers := ?_
    membership_refers := ?_ }
  · intro g hg
    exact ⟨hkeep _ (h.groupGrant_refers g hg).1, (h.groupGrant_refers g hg).2⟩
  · intro m hm
    exact ⟨hkeep _ (h.membership_refers m hm).1, (h.membership_refers m hm).2⟩

theorem renameGroup {id : Id} {name : String} {v : Group} (h : s.Sound)
    (hc : s.renameGroup id name = .ok (some v, s')) : s'.Sound := by
  obtain ⟨g, hg, htaken, rfl, rfl⟩ := renameGroup_eq_ok_some hc
  have hkey : ∀ r : Group, Row.key ({ r with name } : Group) = Row.key r := fun _ => rfl
  have hhas := fun other => Table.has_update hkey id other s.groups
  refine { h with
    groups := Table.sorted_update hkey h.groups
    groupNames := Table.nodup_update h.groups h.groupNames ?_
    groupGrant_refers := ?_
    membership_refers := ?_ }
  · intro r hr hid a ha hne he
    refine Bool.eq_false_iff.mp htaken (List.any_eq_true.mpr ⟨a, ha, ?_⟩)
    simpa using ⟨hne, he⟩
  · intro g hg
    exact ⟨(hhas _).trans (h.groupGrant_refers g hg).1, (h.groupGrant_refers g hg).2⟩
  · intro m hm
    exact ⟨(hhas _).trans (h.membership_refers m hm).1, (h.membership_refers m hm).2⟩

theorem deleteGroup (h : s.Sound) (id : Id) : (s.deleteGroup id).2.Sound := by
  refine { h with
    groups := Table.sorted_erase h.groups
    groupNames := Table.nodup_erase h.groupNames
    groupGrants := h.groupGrants.filter _
    memberships := h.memberships.filter _
    groupGrant_refers := ?_
    membership_refers := ?_ }
  · intro g hg
    obtain ⟨hm, hne⟩ := List.mem_filter.mp hg
    exact ⟨Table.has_erase.mpr ⟨of_decide_eq_true hne, (h.groupGrant_refers g hm).1⟩,
      (h.groupGrant_refers g hm).2⟩
  · intro m hm
    obtain ⟨hm, hne⟩ := List.mem_filter.mp hm
    exact ⟨Table.has_erase.mpr ⟨of_decide_eq_true hne, (h.membership_refers m hm).1⟩,
      (h.membership_refers m hm).2⟩

theorem addMember {group user : Id} {added : Bool} (h : s.Sound)
    (hc : s.addMember group user = .ok (added, s')) : s'.Sound := by
  obtain ⟨hgroup, huser, -, rfl⟩ := addMember_eq_ok hc
  exact { h with
    memberships := nodup_link h.memberships
    membership_refers := forall_mem_link ⟨hgroup, huser⟩ h.membership_refers }

theorem removeMember (h : s.Sound) (group user : Id) : (s.removeMember group user).2.Sound :=
  { h with
    memberships := nodup_unlink h.memberships
    membership_refers := fun m hm => h.membership_refers m ((mem_unlink _ m _).mp hm).1 }

theorem grantGroup {group authority : Id} {x : Unit} (h : s.Sound)
    (hc : s.grantGroup group authority = .ok (x, s')) : s'.Sound := by
  obtain ⟨hgroup, hauth, rfl⟩ := grantGroup_eq_ok hc
  exact { h with
    groupGrants := nodup_link h.groupGrants
    groupGrant_refers := forall_mem_link ⟨hgroup, hauth⟩ h.groupGrant_refers }

theorem revokeGroup (h : s.Sound) (group authority : Id) :
    (s.revokeGroup group authority).2.Sound :=
  { h with
    groupGrants := nodup_unlink h.groupGrants
    groupGrant_refers := fun g hg => h.groupGrant_refers g ((mem_unlink _ g _).mp hg).1 }

/-! ## Instances -/

theorem createInstance {settings : Settings} {i : Instance} (h : s.Sound)
    (hc : s.createInstance settings = .ok (i, s')) : s'.Sound := by
  obtain ⟨id, -, hfresh, rfl, rfl⟩ := createInstance_eq_ok hc
  exact { h with instances := Table.sorted_insert h.instances hfresh }

theorem updateInstance {id : Id} {settings : Settings} {v : Instance} (h : s.Sound)
    (hc : s.updateInstance id settings = (some v, s')) : s'.Sound := by
  obtain ⟨i, -, rfl, rfl⟩ := updateInstance_eq_some hc
  have hkey : ∀ r : Instance, Row.key (resettle settings r) = Row.key r := fun _ => rfl
  exact { h with instances := Table.sorted_update hkey h.instances }

theorem deleteInstance (h : s.Sound) (id : Id) : (s.deleteInstance id).2.Sound :=
  { h with instances := Table.sorted_erase h.instances }

end Sound

/-! ## Deleting what is not there -/

/-- No pair refers to a row that does not exist. -/
theorem filter_of_not_has {α β : Type} [Row β] {side : α → Id} {pairs : List α} {rows : List β}
    {id : Id} (h : ∀ x ∈ pairs, Table.has (side x) rows = true) (hid : Table.has id rows = false) :
    pairs.filter (fun x => side x ≠ id) = pairs := by
  rw [List.filter_eq_self]
  intro x hx
  have hhas := h x hx
  refine decide_eq_true fun he => ?_
  rw [he, hid] at hhas
  cases hhas

theorem deleteUser_of_not_has {s : Store} (h : s.Sound) {id : Id}
    (hid : Table.has id s.users = false) : (s.deleteUser id).2 = s := by
  have hgrants := filter_of_not_has (fun g hg => (h.userGrant_refers g hg).1) hid
  have hmembers := filter_of_not_has (fun m hm => (h.membership_refers m hm).2) hid
  simp only [deleteUser, Table.erase_of_not_has hid, hgrants, hmembers]

theorem deleteGroup_of_not_has {s : Store} (h : s.Sound) {id : Id}
    (hid : Table.has id s.groups = false) : (s.deleteGroup id).2 = s := by
  have hgrants := filter_of_not_has (fun g hg => (h.groupGrant_refers g hg).1) hid
  have hmembers := filter_of_not_has (fun m hm => (h.membership_refers m hm).1) hid
  simp only [deleteGroup, Table.erase_of_not_has hid, hgrants, hmembers]

theorem unlink_of_not_mem {α : Type} [DecidableEq α] {pair : α} {pairs : List α}
    (h : pairs.contains pair = false) : (unlink pair pairs).2 = pairs := by
  rw [unlink, List.filter_eq_self]
  intro a ha
  refine decide_eq_true fun he => ?_
  rw [he] at ha
  simp [ha] at h

theorem revokeUser_of_not_mem {s : Store} {user authority : Id}
    (h : s.userGrants.contains ⟨user, authority⟩ = false) :
    (s.revokeUser user authority).2 = s := by
  rw [revokeUser_snd, unlink_of_not_mem h]

theorem removeMember_of_not_mem {s : Store} {group user : Id}
    (h : s.memberships.contains ⟨group, user⟩ = false) : (s.removeMember group user).2 = s := by
  show { s with memberships := (unlink _ s.memberships).2 } = s
  rw [unlink_of_not_mem h]

theorem revokeGroup_of_not_mem {s : Store} {group authority : Id}
    (h : s.groupGrants.contains ⟨group, authority⟩ = false) :
    (s.revokeGroup group authority).2 = s := by
  show { s with groupGrants := (unlink _ s.groupGrants).2 } = s
  rw [unlink_of_not_mem h]

end Store
end BotFleet
