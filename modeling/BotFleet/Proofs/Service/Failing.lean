import BotFleet.Proofs.Service.Effect

/-
What failed operations leave behind.

An operation that fails may have asked the daemon something in vain, and that is
all that can be told afterwards: the store and the record of running instances are
what they were.  Soundness of the store matters here, because deleting a row that
does not exist still sweeps the relations for pairs that refer to it.
-/

namespace BotFleet
namespace Service

open Json (Message)

/-- The two fleets differ in their links to the daemon at most. -/
structure Fleet.Alike (f f' : Fleet) : Prop where
  store : f'.store = f.store
  running : f'.control.running = f.control.running

namespace Fleet

theorem Alike.refl (f : Fleet) : Alike f f := ⟨rfl, rfl⟩

theorem Alike.isRunning {f f' : Fleet} (h : Alike f f') (id : Id) :
    f'.isRunning id = f.isRunning id := by
  rw [Fleet.isRunning, Fleet.isRunning, Daemon.Control.isRunning, Daemon.Control.isRunning,
    h.running]

end Fleet

variable {c : Context} {sender : Sender} {f f' : Fleet} {failure : Failure}

theorem Users.run_newPassword_error {password : Option String}
    {next : Option String → Action Answer}
    (h : (password.mapM (Users.newPassword c) >>= next).run f = (.error failure, f')) :
    f' = f ∨ ∃ hash, (next hash).run f = (.error failure, f') := by
  cases password with
  | none => exact .inr ⟨none, h⟩
  | some p =>
    have hmap : (some p).mapM (Users.newPassword c) =
        Users.newPassword c p >>= fun hash => pure (some hash) := Option.mapM_some _ _
    rw [hmap, Action.run_bind_bind, Users.newPassword, Action.run_bind_bind] at h
    rcases Action.run_check_bind_error h with ⟨v, -, -, rfl⟩ | ⟨-, h⟩
    · exact .inl rfl
    rcases Action.run_hash_bind_error h with ⟨fault, -, -, rfl⟩ | ⟨hash, -, h⟩
    · exact .inl rfl
    exact .inr ⟨some hash, h⟩

theorem Users.run_edit_error {id : Id} {request : UserEdit}
    (h : (Users.edit c id request).run f = (.error failure, f')) : f' = f := by
  rcases Action.run_forM_check_bind_error h with rfl | h
  · rfl
  rcases Users.run_newPassword_error h with rfl | ⟨hash, h⟩
  · rfl
  rcases Action.run_call_bind_error h with ⟨fault, -, -, rfl⟩ | ⟨changed, store, hcall, h⟩
  · rfl
  cases changed with
  | none =>
    cases h
    obtain ⟨-, rfl⟩ := Store.updateUser_eq_ok_none hcall
    rfl
  | some u => cases h

theorem Instances.run_steer_error {id : Id}
    {command : Instance → Daemon.Control → Except Daemon.Fault Bool × Daemon.Control}
    (h : (Instances.steer id command).run f = (.error failure, f')) :
    (f.store.instance? id = none ∧ failure = missing "Instance" id ∧ f' = f) ∨
      ∃ i fault control, f.store.instance? id = some i ∧
        command i f.control = (.error fault, control) ∧ failure = .daemon fault ∧
        f' = { f with control } := by
  rcases Action.run_find_bind_error h with ⟨hnone, rfl, rfl⟩ | ⟨i, hi, h⟩
  · exact .inl ⟨hnone, rfl, rfl⟩
  refine .inr ?_
  rw [Action.run_bind, Action.run_command] at h
  rcases hc : command i f.control with ⟨fault | done, control⟩
  · rw [hc] at h
    cases h
    exact ⟨i, fault, control, hi, hc, rfl, rfl⟩
  · rw [hc] at h
    cases done <;> cases h

/-- Only a command that the daemon refuses leaves a trace of a failed operation. -/
theorem Operation.perform_error {op : Operation} (hs : f.store.Sound)
    (h : (op.perform c sender).run f = (.error failure, f')) : f.Alike f' := by
  cases op with
  | showMe =>
    rcases Action.run_find_bind_error h with ⟨-, -, rfl⟩ | ⟨u, -, h⟩
    · exact .refl _
    · cases h
  | showUser id =>
    rcases Action.run_find_bind_error h with ⟨-, -, rfl⟩ | ⟨u, -, h⟩
    · exact .refl _
    · cases h
  | createUser request =>
    rcases Action.run_check_bind_error h with ⟨v, -, -, rfl⟩ | ⟨-, h⟩
    · exact .refl _
    rcases Action.run_check_bind_error h with ⟨v, -, -, rfl⟩ | ⟨-, h⟩
    · exact .refl _
    rw [Action.run_bind, Action.run_read] at h
    dsimp only at h
    split at h
    · cases h
      exact .refl _
    rcases Action.run_hash_bind_error h with ⟨fault, -, -, rfl⟩ | ⟨hash, -, h⟩
    · exact .refl _
    rcases Action.run_call_bind_error h with ⟨fault, -, -, rfl⟩ | ⟨u, store, -, h⟩
    · exact .refl _
    · cases h
  | editUser id request => exact Users.run_edit_error h ▸ .refl _
  | deleteUser id =>
    rcases Action.run_write_guard_error h with ⟨hnone, -, rfl⟩ | ⟨-, h⟩
    · exact ⟨Store.deleteUser_of_not_has hs hnone, rfl⟩
    · cases h
  | grantUser id authority =>
    rcases Action.run_find_bind_error h with ⟨-, -, rfl⟩ | ⟨u, -, h⟩
    · exact .refl _
    rcases Action.run_call_bind_error h with ⟨fault, -, -, rfl⟩ | ⟨u, store, -, h⟩
    · exact .refl _
    · cases h
  | revokeUser id authority =>
    rcases Action.run_write_guard_error h with ⟨hnone, -, rfl⟩ | ⟨-, h⟩
    · exact ⟨Store.revokeUser_of_not_mem hnone, rfl⟩
    · cases h
  | showGroup id =>
    rcases Action.run_find_bind_error h with ⟨-, -, rfl⟩ | ⟨g, -, h⟩
    · exact .refl _
    · cases h
  | createGroup request =>
    rcases Action.run_check_bind_error h with ⟨v, -, -, rfl⟩ | ⟨-, h⟩
    · exact .refl _
    rcases Action.run_call_bind_error h with ⟨fault, -, -, rfl⟩ | ⟨g, store, -, h⟩
    · exact .refl _
    · cases h
  | renameGroup id request =>
    rcases Action.run_check_bind_error h with ⟨v, -, -, rfl⟩ | ⟨-, h⟩
    · exact .refl _
    rcases Action.run_call_bind_error h with ⟨fault, -, -, rfl⟩ | ⟨renamed, store, hcall, h⟩
    · exact .refl _
    cases renamed with
    | none =>
      cases h
      exact ⟨(Store.renameGroup_eq_ok_none hcall).2, rfl⟩
    | some g => cases h
  | deleteGroup id =>
    rcases Action.run_write_guard_error h with ⟨hnone, -, rfl⟩ | ⟨-, h⟩
    · exact ⟨Store.deleteGroup_of_not_has hs hnone, rfl⟩
    · cases h
  | addMember group user =>
    rcases Action.run_find_bind_error h with ⟨-, -, rfl⟩ | ⟨g, -, h⟩
    · exact .refl _
    rcases Action.run_find_bind_error h with ⟨-, -, rfl⟩ | ⟨u, -, h⟩
    · exact .refl _
    rcases Action.run_call_bind_error h with ⟨fault, -, -, rfl⟩ | ⟨added, store, -, h⟩
    · exact .refl _
    · cases added <;> cases h
  | removeMember group user =>
    rcases Action.run_find_bind_error h with ⟨-, -, rfl⟩ | ⟨g, -, h⟩
    · exact .refl _
    rcases Action.run_write_guard_error h with ⟨hnone, -, rfl⟩ | ⟨-, h⟩
    · exact ⟨Store.removeMember_of_not_mem hnone, rfl⟩
    · cases h
  | grantGroup id authority =>
    rcases Action.run_find_bind_error h with ⟨-, -, rfl⟩ | ⟨g, -, h⟩
    · exact .refl _
    rcases Action.run_call_bind_error h with ⟨fault, -, -, rfl⟩ | ⟨u, store, -, h⟩
    · exact .refl _
    · cases h
  | revokeGroup id authority =>
    rcases Action.run_write_guard_error h with ⟨hnone, -, rfl⟩ | ⟨-, h⟩
    · exact ⟨Store.revokeGroup_of_not_mem hnone, rfl⟩
    · cases h
  | showInstance id =>
    rcases Action.run_find_bind_error h with ⟨-, -, rfl⟩ | ⟨i, -, h⟩
    · exact .refl _
    · cases h
  | createInstance settings =>
    rcases Action.run_check_bind_error h with ⟨v, -, -, rfl⟩ | ⟨-, h⟩
    · exact .refl _
    rcases Action.run_call_bind_error h with ⟨fault, -, -, rfl⟩ | ⟨i, store, -, h⟩
    · exact .refl _
    · cases h
  | editInstance id settings =>
    rcases Action.run_check_bind_error h with ⟨v, -, -, rfl⟩ | ⟨-, h⟩
    · exact .refl _
    rw [Action.run_bind, Action.run_write] at h
    rcases hcall : f.store.updateInstance id settings with ⟨_ | i, store⟩
    · rw [hcall] at h
      cases h
      exact ⟨(Store.updateInstance_eq_none hcall).2, rfl⟩
    · rw [hcall] at h
      cases h
  | deleteInstance id =>
    rcases Action.run_find_bind_error h with ⟨-, -, rfl⟩ | ⟨i, -, h⟩
    · exact .refl _
    rw [Action.run_bind, Action.run_command] at h
    rcases hstop : f.control.stop i.id with ⟨fault | stopped, control⟩ <;>
    · rw [hstop] at h
      cases h
  | startInstance id =>
    rcases Instances.run_steer_error h with ⟨-, -, rfl⟩ | ⟨i, fault, control, -, hstart, -, rfl⟩
    · exact .refl _
    · exact ⟨rfl, Daemon.Control.running_of_start_error hstart⟩
  | stopInstance id =>
    rcases Instances.run_steer_error h with ⟨-, -, rfl⟩ | ⟨i, fault, control, -, hstop, -, rfl⟩
    · exact .refl _
    · exact ⟨rfl, Daemon.Control.running_of_stop_error hstop⟩
  | listUsers | listGroups | listInstances | listAuthorities => cases h

end Service
end BotFleet
