import BotFleet.Proofs.Store.Access

/-
Who holds what, and what new rows start with.

An account holds what was granted to it and to the groups it is a member of.  Identifiers
are given out again, so a new row may well have the one of a row that was deleted.  It
inherits nothing with it, because no pair of a sound store refers to a row that is missing:
whatever a deleted row had, went with it.

The theorem this file exists for is `new_rows_inherit_nothing`.
-/

namespace BotFleet
namespace Store

variable {s s' : Store}

/-! ## What an account holds -/

theorem holds_iff {user authority : Id} :
    s.holds user authority = true ↔
      ⟨user, authority⟩ ∈ s.userGrants ∨
        ∃ group, ⟨group, user⟩ ∈ s.memberships ∧ ⟨group, authority⟩ ∈ s.groupGrants := by
  simp only [holds, Bool.or_eq_true, List.any_eq_true, Bool.and_eq_true, beq_iff_eq,
    List.contains_iff_mem]
  refine or_congr_right ⟨?_, ?_⟩
  · rintro ⟨⟨group, u⟩, hm, rfl, hg⟩
    exact ⟨group, hm, hg⟩
  · rintro ⟨group, hm, hg⟩
    exact ⟨⟨group, user⟩, hm, rfl, hg⟩

theorem mem_membersOf {group user : Id} :
    user ∈ s.membersOf group ↔ ⟨group, user⟩ ∈ s.memberships := by
  rw [membersOf, sortIds, List.mem_mergeSort, List.mem_map]
  constructor
  · rintro ⟨⟨g, u⟩, hm, rfl⟩
    obtain ⟨hm, hg⟩ := List.mem_filter.mp hm
    rw [← (beq_iff_eq.mp hg : g = group)]
    exact hm
  · intro hm
    exact ⟨⟨group, user⟩, List.mem_filter.mpr ⟨hm, beq_self_eq_true group⟩, rfl⟩

theorem authoritiesOf_congr {user : Id} (hauthorities : s'.authorities = s.authorities)
    (hholds : ∀ authority, s'.holds user authority = s.holds user authority) :
    s'.authoritiesOf user = s.authoritiesOf user := by
  simp only [authoritiesOf, hauthorities, hholds]

/-- An account that holds one authority only has its name and no other. -/
theorem Sound.authoritiesOf_eq_singleton (h : s.Sound) {user : Id} {a : Authority}
    (ha : a ∈ s.authorities) (honly : ∀ authority, s.holds user authority = true ↔ authority = a.id) :
    s.authoritiesOf user = [a.name] := by
  have hfilter : (s.authorities.filter fun b => s.holds user b.id) = [a] := by
    have hholds : (fun b : Authority => s.holds user b.id) = fun b => decide (b.id = a.id) := by
      funext b
      rw [Bool.eq_iff_iff, honly, decide_eq_true_iff]
    rw [h.authorities] at ha
    rw [hholds, h.authorities]
    rcases List.mem_cons.mp ha with rfl | ha
    · rfl
    · cases List.mem_singleton.mp ha
      rfl
  rw [authoritiesOf, hfilter]
  exact List.mergeSort_singleton _

/-! ## Rows that are missing -/

theorem Sound.not_mem_members (h : s.Sound) {id : Id} (hid : Table.has id s.users = false)
    (group : Id) : ⟨group, id⟩ ∉ s.memberships := by
  intro hm
  have hhas := (h.membership_refers _ hm).2
  rw [hid] at hhas
  cases hhas

theorem Sound.membersOf_eq_nil (h : s.Sound) {id : Id} (hid : Table.has id s.groups = false) :
    s.membersOf id = [] := by
  refine List.eq_nil_iff_forall_not_mem.mpr fun user hm => ?_
  have hhas := (h.membership_refers _ (mem_membersOf.mp hm)).1
  rw [hid] at hhas
  cases hhas

/-- Nothing is granted to the members of the group. -/
def Grantless (s : Store) (group : Id) : Prop := ∀ g ∈ s.groupGrants, g.holder ≠ group

theorem Sound.grantless (h : s.Sound) {id : Id} (hid : Table.has id s.groups = false) :
    s.Grantless id := by
  rintro g hg rfl
  have hhas := (h.groupGrant_refers _ hg).1
  rw [hid] at hhas
  cases hhas

/-! ## New accounts -/

/-- A new account holds the authority that it was created with and is in no group. -/
theorem Sound.addUser_rights (h : s.Sound) {u v : User} {a : Authority} (ha : a ∈ s.authorities)
    (hc : s.addUser u a.id = .ok (v, s')) :
    s'.authoritiesOf v.id = [a.name] ∧ ∀ group, v.id ∉ s'.membersOf group := by
  have hsound := h.addUser hc
  obtain ⟨hfresh, -, -, rfl, rfl⟩ := addUser_eq_ok_iff.mp hc
  have hnone := h.not_mem_members hfresh
  refine ⟨hsound.authoritiesOf_eq_singleton ha fun authority => ?_, fun group hm => ?_⟩
  · rw [holds_iff, mem_link]
    constructor
    · rintro ((hnew | hold) | ⟨group, hm, -⟩)
      · injection hnew
      · exact absurd hold (h.not_mem_userGrants hfresh authority)
      · exact absurd hm (hnone group)
    · rintro rfl
      exact .inl (.inl rfl)
  · exact hnone group (mem_membersOf.mp hm)

theorem Sound.createUser_rights (h : s.Sound) {name hash : String} {enabled : Bool}
    {now : Instant} {v : User} (hc : s.createUser name hash enabled now = .ok (v, s')) :
    s'.authoritiesOf v.id = [userAuthority.name] ∧ ∀ group, v.id ∉ s'.membersOf group := by
  unfold Store.createUser at hc
  split at hc
  · cases hc
  · refine h.addUser_rights ?_ hc
    rw [h.authorities]
    exact List.mem_cons_self

/-! ## New groups -/

/-- The store without the memberships of a group. -/
def withoutMembers (group : Id) (s : Store) : Store :=
  { s with memberships := s.memberships.filter (·.group ≠ group) }

/-- A group to which nothing is granted gives nothing to its members. -/
theorem Grantless.authoritiesOf {group : Id} (h : s.Grantless group) (user : Id) :
    s.authoritiesOf user = (s.withoutMembers group).authoritiesOf user := by
  refine authoritiesOf_congr rfl fun authority => ?_
  rw [Bool.eq_iff_iff, holds_iff, holds_iff]
  refine or_congr_right (exists_congr fun other => ?_)
  have hkept : ⟨other, authority⟩ ∈ s.groupGrants → other ≠ group := fun hg => h _ hg
  simp only [withoutMembers, List.mem_filter, decide_eq_true_eq]
  tauto

/-- A grant of a group was there before, or it is what the access is for. -/
theorem mem_groupGrants_of_outcome {a : Access} {g : Grant} (ha : a.outcome s = .ok s')
    (hg : g ∈ s'.groupGrants) : g ∈ s.groupGrants ∨ a = .grantGroup g.holder g.authority := by
  cases a with
  | createUser name hash enabled now =>
    obtain ⟨⟨u, after⟩, hcall, rfl⟩ := Json.map_eq_ok ha
    obtain ⟨id, -, -, -, -, -, rfl⟩ := createUser_eq_ok hcall
    exact .inl hg
  | createUserWithId id name hash authority now =>
    obtain ⟨⟨u, after⟩, hcall, rfl⟩ := Json.map_eq_ok ha
    obtain ⟨-, -, -, -, rfl⟩ := addUser_eq_ok_iff.mp hcall
    exact .inl hg
  | updateUser id changes =>
    obtain ⟨⟨_ | u, after⟩, hcall, rfl⟩ := Json.map_eq_ok ha
    · rw [(updateUser_eq_ok_none hcall).2] at hg
      exact .inl hg
    · obtain ⟨u, -, -, -, rfl⟩ := updateUser_eq_ok_some hcall
      exact .inl hg
  | grantUser user authority =>
    obtain ⟨⟨x, after⟩, hcall, rfl⟩ := Json.map_eq_ok ha
    obtain ⟨-, -, rfl⟩ := grantUser_eq_ok hcall
    exact .inl hg
  | createGroup name =>
    obtain ⟨⟨x, after⟩, hcall, rfl⟩ := Json.map_eq_ok ha
    obtain ⟨id, -, -, -, -, rfl⟩ := createGroup_eq_ok hcall
    exact .inl hg
  | renameGroup id name =>
    obtain ⟨⟨_ | x, after⟩, hcall, rfl⟩ := Json.map_eq_ok ha
    · rw [(renameGroup_eq_ok_none hcall).2] at hg
      exact .inl hg
    · obtain ⟨x, -, -, -, rfl⟩ := renameGroup_eq_ok_some hcall
      exact .inl hg
  | deleteGroup id =>
    cases ha
    exact .inl (List.mem_of_mem_filter hg)
  | addMember group user =>
    obtain ⟨⟨x, after⟩, hcall, rfl⟩ := Json.map_eq_ok ha
    obtain ⟨-, -, -, rfl⟩ := addMember_eq_ok hcall
    exact .inl hg
  | grantGroup group authority =>
    obtain ⟨⟨x, after⟩, hcall, rfl⟩ := Json.map_eq_ok ha
    obtain ⟨-, -, rfl⟩ := grantGroup_eq_ok hcall
    rcases (mem_link _ _ _).mp hg with rfl | hg
    · exact .inr rfl
    · exact .inl hg
  | revokeGroup group authority =>
    cases ha
    exact .inl ((mem_unlink _ _ _).mp hg).1
  | createInstance settings =>
    obtain ⟨⟨x, after⟩, hcall, rfl⟩ := Json.map_eq_ok ha
    obtain ⟨id, -, -, -, rfl⟩ := createInstance_eq_ok hcall
    exact .inl hg
  | updateInstance id settings =>
    cases ha
    rcases hcall : s.updateInstance id settings with ⟨_ | i, after⟩
    · rw [hcall, (updateInstance_eq_none hcall).2] at hg
      exact .inl hg
    · obtain ⟨i, -, -, rfl⟩ := updateInstance_eq_some hcall
      rw [hcall] at hg
      exact .inl hg
  | deleteUser | revokeUser | removeMember | deleteInstance =>
    cases ha
    exact .inl hg

/-- Until something is granted to a group, its members have nothing from it. -/
theorem Grantless.after {group : Id} (h : s.Grantless group) {later : List Access}
    (hlater : ∀ authority, .grantGroup group authority ∉ later) : (s.after later).Grantless group := by
  refine after_keeps (P := (·.Grantless group)) h fun s a ha hs => ?_
  refine Access.run_keeps (P := (·.Grantless group)) hs fun after hafter g hg => ?_
  rcases mem_groupGrants_of_outcome hafter hg with hold | rfl
  · exact hs g hold
  · rintro rfl
    exact hlater _ ha

theorem Sound.createGroup_rights (h : s.Sound) {name : String} {g : Group}
    (hc : s.createGroup name = .ok (g, s')) : s'.membersOf g.id = [] ∧ s'.Grantless g.id := by
  obtain ⟨id, -, hfresh, -, rfl, rfl⟩ := createGroup_eq_ok hc
  exact ⟨h.membersOf_eq_nil hfresh, h.grantless hfresh⟩

/-! ## Whatever happened before -/

/-- An account and a group come about and go again.  In between the account is a member of
the group, and both hold all there is. -/
def turnover : List Access :=
  [.createUser "alice" "hash" true ⟨0, 0⟩, .createGroup "team",
    .grantUser Table.firstId adminAuthority.id, .addMember Table.firstId Table.firstId,
    .grantGroup Table.firstId adminAuthority.id, .deleteUser Table.firstId,
    .deleteGroup Table.firstId]

/-- After any history, a new account has the authority of every new account and is in no
group.  A new group has no members, and until something is granted to it those who become
members have nothing from it. -/
theorem new_rows_inherit_nothing (history : List Access) :
    let s := fresh.after history
    (∀ name hash enabled now u s', s.createUser name hash enabled now = .ok (u, s') →
      s'.authoritiesOf u.id = ["ROLE_USER"] ∧ ∀ group, u.id ∉ s'.membersOf group) ∧
    ∀ name g s', s.createGroup name = .ok (g, s') →
      s'.membersOf g.id = [] ∧
        ∀ later : List Access, (∀ authority, .grantGroup g.id authority ∉ later) → ∀ user,
          (s'.after later).authoritiesOf user =
            ((s'.after later).withoutMembers g.id).authoritiesOf user := by
  intro s
  have hs : s.Sound := Sound.fresh.after history
  constructor
  · intro name hash enabled now u s' hc
    exact hs.createUser_rights hc
  · intro name g s' hc
    obtain ⟨hmembers, hgrantless⟩ := hs.createGroup_rights hc
    refine ⟨hmembers, fun later hlater user => ?_⟩
    exact (hgrantless.after hlater).authoritiesOf user

/-- Another account and another group that are given the same identifiers have nothing of
what the first ones had, also once the account is a member of the group. -/
theorem turnover_inherits_nothing :
    (∃ before after, turnover = before ++ after ∧
      ⟨Table.firstId, adminAuthority.id⟩ ∈ (fresh.after before).userGrants ∧
      ⟨Table.firstId, adminAuthority.id⟩ ∈ (fresh.after before).groupGrants ∧
      ⟨Table.firstId, Table.firstId⟩ ∈ (fresh.after before).memberships) ∧
    ∃ bob s₁ crew s₂, (fresh.after turnover).createUser "bob" "hash" true ⟨1, 0⟩ = .ok (bob, s₁) ∧
      (fresh.after turnover).createGroup "crew" = .ok (crew, s₂) ∧
      bob.id = Table.firstId ∧ crew.id = Table.firstId ∧
      s₁.authoritiesOf bob.id = ["ROLE_USER"] ∧ bob.id ∉ s₁.membersOf Table.firstId ∧
      s₂.membersOf crew.id = [] ∧
      let joined := s₂.after [.createUser "bob" "hash" true ⟨1, 0⟩, .addMember crew.id bob.id]
      ⟨crew.id, bob.id⟩ ∈ joined.memberships ∧
        joined.authoritiesOf bob.id = (joined.withoutMembers crew.id).authoritiesOf bob.id := by
  refine ⟨⟨turnover.take 5, turnover.drop 5, rfl, by decide, by decide, by decide⟩, ?_⟩
  obtain ⟨hbob, hcrew⟩ := new_rows_inherit_nothing turnover
  obtain ⟨hrights, hmember⟩ := hbob "bob" "hash" true ⟨1, 0⟩ _ _ rfl
  obtain ⟨hmembers, hlater⟩ := hcrew "crew" _ _ rfl
  refine ⟨_, _, _, _, rfl, rfl, rfl, rfl, hrights, hmember _, hmembers, by decide, ?_⟩
  exact hlater _ (by simp) _

end Store
end BotFleet
