import BotFleet.Proofs.Store.Faults

/-
Changes of an account.

A change names some fields of an account and leaves the others as they are, and it reaches
one row of one table.  Two changes in turn come to the one that names what either of them
names, with the word of the later one where both do.  The name that the first one gives is
given to nobody else, so it is `merge` that decides whether the second one is refused.

The theorem this file exists for is `updates_only_what_is_named`.
-/

namespace BotFleet
namespace Store

namespace UserChanges

/-- What either of two changes names, as the later one has it where both do. -/
def merge (first later : UserChanges) : UserChanges where
  username := later.username.or first.username
  enabled := later.enabled.or first.enabled
  password := later.password.or first.password

theorem apply_merge (first later : UserChanges) (u : User) :
    (first.merge later).apply u = later.apply (first.apply u) := by
  simp only [apply, merge, Option.getD_or]

theorem merge_self (c : UserChanges) : c.merge c = c := by
  simp only [merge, Option.or_self]

/-- A change leaves an account its identifier. -/
theorem key_apply (c : UserChanges) (u : User) : Row.key (c.apply u) = Row.key u := rfl

end UserChanges

variable {s s' : Store} {id : Id} {c : UserChanges} {u v : User}

theorem updateUser_of_none (hu : s.user? id = none) : s.updateUser id c = .ok (none, s) := by
  rw [updateUser, hu]

theorem updateUser_of_some (hu : s.user? id = some u) :
    s.updateUser id c =
      if s.nameTakenBeside id (c.apply u).username then .error .duplicate
      else .ok (some (c.apply u), { s with users := Table.update id c.apply s.users }) := by
  rw [updateUser, hu]

/-- A change of an account takes no name from the others and gives them none. -/
theorem nameTakenBeside_update (s : Store) (id : Id) (c : UserChanges) (name : String) :
    nameTakenBeside { s with users := Table.update id c.apply s.users } id name =
      s.nameTakenBeside id name := by
  rw [nameTakenBeside, nameTakenBeside, Table.update, List.any_map]
  congr 1
  funext r
  by_cases hid : Row.key r = id
  · have hown : r.id = id := hid
    simp [UserChanges.apply, hid, hown]
  · simp [hid]

/-- Once a change was made, any other one comes to what both of them would have come to. -/
theorem updateUser_updateUser {first later : UserChanges} {found : Option User}
    (h : s.updateUser id first = .ok (found, s')) :
    s'.updateUser id later = s.updateUser id (first.merge later) := by
  cases found with
  | none =>
    obtain ⟨hu, rfl⟩ := updateUser_eq_ok_none h
    rw [updateUser_of_none hu, updateUser_of_none hu]
  | some v =>
    obtain ⟨u, hu, -, rfl, rfl⟩ := updateUser_eq_ok_some h
    have hchanged : user? { s with users := Table.update id first.apply s.users } id =
        some (first.apply u) := by
      rw [user?, Table.find?_update id id _ _ first.key_apply, if_pos rfl]
      show (s.user? id).map first.apply = _
      rw [hu]
      rfl
    have hrows : Table.update id later.apply (Table.update id first.apply s.users) =
        Table.update id (first.merge later).apply s.users := by
      rw [Table.update_update first.key_apply]
      congr 1
      funext r
      exact (first.apply_merge later r).symm
    rw [updateUser_of_some hchanged, updateUser_of_some hu, nameTakenBeside_update, hrows,
      UserChanges.apply_merge]

/-- The second store is the first one with the fields that are named changed in the row of
the account, and `found` is what stands there now. -/
structure Edited (s : Store) (id : Id) (c : UserChanges) (found : Option User) (s' : Store) :
    Prop where
  stored : s'.user? id = found
  row : ∀ u ∈ s.users, u.id = id → found = some
    { id := u.id
      username := c.username.getD u.username
      enabled := c.enabled.getD u.enabled
      password := c.password.getD u.password
      created := u.created }
  others : ∀ u, u.id ≠ id → (u ∈ s'.users ↔ u ∈ s.users)
  ids : s'.users.map (·.id) = s.users.map (·.id)
  rest : s' = { s with users := s'.users }

theorem Sound.edited {found : Option User} (h : s.Sound)
    (hc : s.updateUser id c = .ok (found, s')) : s.Edited id c found s' := by
  cases found with
  | none =>
    obtain ⟨hu, rfl⟩ := updateUser_eq_ok_none hc
    have hmissing := Table.has_eq_false_iff.mp (Table.has_of_find?_eq_none hu)
    exact {
      stored := hu
      row := fun u hmem hid => absurd hid (hmissing u hmem)
      others := fun _ _ => Iff.rfl
      ids := rfl
      rest := rfl }
  | some v =>
    obtain ⟨u, hu, -, rfl, rfl⟩ := updateUser_eq_ok_some hc
    refine {
      stored := ?_
      row := ?_
      others := fun r hne => Table.mem_update_of_ne c.key_apply hne
      ids := Table.keys_update c.key_apply id s.users
      rest := rfl }
    · rw [user?, Table.find?_update id id _ _ c.key_apply, if_pos rfl]
      exact congrArg (Option.map c.apply) hu
    · intro r hr hid
      have hfind : s.user? id = some r := (Table.find?_eq_some_iff h.users).mpr ⟨hr, hid⟩
      cases hu.symm.trans hfind
      rfl

theorem exists_updateUser_iff (h : s.Sound) :
    (∃ v s', s.updateUser id c = .ok (some v, s')) ↔
      s.HasUser id ∧ ∀ u ∈ s.users, u.id ≠ id → c.username ≠ some u.username := by
  constructor
  · intro hok
    obtain ⟨v, s', hc⟩ := hok
    obtain ⟨u, hu, -, -, -⟩ := updateUser_eq_ok_some hc
    refine ⟨⟨u, Table.mem_of_find? hu, Table.key_of_find? hu⟩, fun r hr hne hname => ?_⟩
    have hrefused := (updateUser_eq_error_iff h).mpr
      ⟨rfl, ⟨u, Table.mem_of_find? hu, Table.key_of_find? hu⟩, r, hr, hne, hname⟩
    rw [hc] at hrefused
    cases hrefused
  · intro hfree
    obtain ⟨⟨u, hu, hid⟩, hnames⟩ := hfree
    cases hc : s.updateUser id c with
    | error fault =>
      obtain ⟨-, -, r, hr, hne, hname⟩ := (updateUser_eq_error_iff h).mp hc
      exact absurd hname (hnames r hr hne)
    | ok result =>
      obtain ⟨_ | v, s'⟩ := result
      · have hmissing :=
          Table.has_eq_false_iff.mp (Table.has_of_find?_eq_none (updateUser_eq_ok_none hc).1)
        exact absurd hid (hmissing u hu)
      · exact ⟨v, s', rfl⟩

theorem updateUser_eq_none_iff : s.updateUser id c = .ok (none, s) ↔ ¬s.HasUser id := by
  have hmissing : s.user? id = none ↔ ¬s.HasUser id := by
    rw [user?, Table.find?, List.find?_eq_none]
    simp [HasUser, Row.key]
  rw [← hmissing]
  exact ⟨fun hc => (updateUser_eq_ok_none hc).1, updateUser_of_none⟩

/-- Whatever happened before, a change of an account that is made reaches the fields that it
names in the row of that account and nothing else.  No account is found exactly if there is
none.  The same change made again changes nothing, and any other change made next comes to
what both of them, merged into one, would have come to. -/
theorem updates_only_what_is_named (history : List Access) (id : Id) :
    let s := fresh.after history
    (∀ c found s', s.updateUser id c = .ok (found, s') → s.Edited id c found s') ∧
    (∀ c, s.updateUser id c = .ok (none, s) ↔ ¬s.HasUser id) ∧
    (∀ c, (∃ v s', s.updateUser id c = .ok (some v, s')) ↔
      s.HasUser id ∧ ∀ u ∈ s.users, u.id ≠ id → c.username ≠ some u.username) ∧
    (∀ c found s', s.updateUser id c = .ok (found, s') → s'.updateUser id c = .ok (found, s')) ∧
    ∀ first later found s', s.updateUser id first = .ok (found, s') →
      s'.updateUser id later = s.updateUser id (first.merge later) := by
  intro s
  have hs : s.Sound := Sound.fresh.after history
  refine ⟨fun c found s' hc => hs.edited hc, fun c => updateUser_eq_none_iff,
    fun c => exists_updateUser_iff hs, fun c found s' hc => ?_,
    fun first later found s' hc => updateUser_updateUser hc⟩
  rw [updateUser_updateUser hc, UserChanges.merge_self]
  exact hc

/-- An account that is disabled keeps its name and its password.  To disable it again
changes nothing, and to rename it then is to do both at once. -/
theorem alice_disabled_only :
    let s := fresh.after [.createUser "alice" "hash" true ⟨0, 0⟩]
    let disable : UserChanges := ⟨none, some false, none⟩
    let rename : UserChanges := ⟨some "bob", none, none⟩
    ∃ v s', s.updateUser Table.firstId disable = .ok (some v, s') ∧
      v = ⟨Table.firstId, "alice", false, "hash", ⟨0, 0⟩⟩ ∧
      s.Edited Table.firstId disable (some v) s' ∧
      s'.updateUser Table.firstId disable = .ok (some v, s') ∧
      s'.updateUser Table.firstId rename =
        s.updateUser Table.firstId ⟨some "bob", some false, none⟩ := by
  intro s disable rename
  obtain ⟨hedited, -, -, hagain, hmerged⟩ :=
    updates_only_what_is_named [.createUser "alice" "hash" true ⟨0, 0⟩] Table.firstId
  obtain ⟨v, s', hc, hv⟩ : ∃ v s', s.updateUser Table.firstId disable = .ok (some v, s') ∧
      v = ⟨Table.firstId, "alice", false, "hash", ⟨0, 0⟩⟩ := ⟨_, _, rfl, rfl⟩
  exact ⟨v, s', hc, hv, hedited _ _ _ hc, hagain _ _ _ hc, hmerged _ rename _ _ hc⟩

end Store
end BotFleet
