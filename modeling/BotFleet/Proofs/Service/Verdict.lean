import BotFleet.Proofs.Service.Untouched

/-
What the status of an answer tells.

Failures have a status of 400 or above, with the one exception of those that bring a
status of their own, and no operation fails with such a one.  So the status tells
whether an operation has failed, and what it did can be read off a request that was
not answered as a failure.
-/

namespace BotFleet
namespace Service

/-- Whatever fails in the action is answered as a failure. -/
def Action.Candid {α : Type} (a : Action α) : Prop :=
  ∀ f failure f', a.run f = (.error failure, f') → 400 ≤ failure.status

namespace Action.Candid

variable {α β : Type}

theorem pure (a : α) : (pure a : Action α).Candid := by
  intro f failure f' h
  cases h

theorem read (view : Fleet → α) : (Action.read view).Candid := by
  intro f failure f' h
  cases h

theorem write (g : Store → α × Store) : (Action.write g).Candid := by
  intro f failure f' h
  cases h

theorem command (g : Daemon.Control → Except Daemon.Fault α × Daemon.Control) :
    (Action.command g).Candid := by
  intro f failure f' h
  cases h

theorem fail {failure : Failure} (hstatus : 400 ≤ failure.status) :
    (Action.fail failure : Action α).Candid := by
  intro f failure f' h
  cases h
  exact hstatus

theorem find (view : Fleet → Option α) {missing : Failure} (hstatus : 400 ≤ missing.status) :
    (Action.find view missing).Candid := by
  intro f failure f' h
  rw [run_find] at h
  cases hview : view f with
  | none =>
    rw [hview] at h
    cases h
    exact hstatus
  | some x =>
    rw [hview] at h
    cases h

theorem check (result : Except Violation Unit) : (Action.check result).Candid := by
  intro f failure f' h
  cases result with
  | error v =>
    cases h
    exact Nat.le_refl 400
  | ok u => cases h

theorem call (g : Store → Store.Call α) : (Action.call g).Candid := by
  intro f failure f' h
  rw [run_call] at h
  rcases hg : g f.store with fault | ⟨x, store⟩
  · rw [hg] at h
    cases h
    cases fault <;> simp [Failure.status]
  · rw [hg] at h
    cases h

theorem hash (c : Context) (password : String) : (Action.hash c password).Candid := by
  intro f failure f' h
  rw [run_hash] at h
  cases hhash : c.scheme.hash c.config.hashCost c.salt password with
  | error fault =>
    rw [hhash] at h
    cases h
    simp [Failure.status]
  | ok stored =>
    rw [hhash] at h
    cases h

theorem bind {a : Action α} {next : α → Action β} (ha : a.Candid) (hnext : ∀ x, (next x).Candid) :
    (a >>= next).Candid := by
  intro f failure f' h
  rw [run_bind] at h
  rcases hrun : a.run f with ⟨first | x, g⟩
  · rw [hrun] at h
    cases h
    exact ha f failure f' hrun
  · rw [hrun] at h
    exact hnext x g failure f' h

theorem ite {p : Prop} [Decidable p] {a b : Action α} (ha : a.Candid) (hb : b.Candid) :
    (if p then a else b).Candid := by
  split
  · exact ha
  · exact hb

/-- Something to take away, and the failure for when it is not there. -/
theorem guard {g : Store → Bool × Store} {done : Action Answer} {missing : Failure}
    (hdone : done.Candid) (hstatus : 400 ≤ missing.status) :
    (do if ← Action.write g then done else Action.fail missing : Action Answer).Candid :=
  .bind (.write g) fun _ => .ite hdone (.fail hstatus)

end Action.Candid

variable {c : Context} {sender : Sender}

theorem status_missing (resource : String) (id : Id) : 400 ≤ (missing resource id).status := by
  simp [missing, Failure.status]

theorem status_missingPair (resource : String) (first second : Id) :
    400 ≤ (missingPair resource first second).status := by
  simp [missingPair, Failure.status]

namespace Users

theorem candid_create (request : NewUser) : (create c request).Candid := by
  refine .bind (.check _) fun _ => .bind (.check _) fun _ => .bind (.read _) fun _ => ?_
  have hstore : (do
      let hash ← Action.hash c request.password
      let user ← Action.call (Store.createUser request.username hash request.enabled c.now)
      return .created (Json.Message.toJson user) .users : Action Answer).Candid :=
    .bind (.hash _ _) fun _ => .bind (.call _) fun _ => .pure _
  exact .ite (.bind (.fail (by simp [Failure.status])) fun _ => hstore) hstore

theorem candid_edit (id : Id) (request : UserEdit) : (edit c id request).Candid := by
  have hname : (request.username.forM fun name =>
      Action.check (Validation.username name)).Candid := by
    cases request.username with
    | none => exact .pure _
    | some name => exact .check _
  have hpassword : (request.password.mapM (newPassword c)).Candid := by
    cases request.password with
    | none => exact .pure _
    | some password =>
      have hmap : (some password).mapM (newPassword c) =
          newPassword c password >>= fun hash => Pure.pure (some hash) := Option.mapM_some _ _
      rw [hmap]
      exact .bind (.bind (.check _) fun _ => .hash _ _) fun _ => .pure _
  refine .bind hname fun _ => .bind hpassword fun _ => .bind (.call _) fun changed => ?_
  cases changed with
  | none => exact .fail (status_missing _ _)
  | some u => exact .pure _

end Users

theorem Instances.candid_steer (id : Id)
    (command : Instance → Daemon.Control → Except Daemon.Fault Bool × Daemon.Control) :
    (Instances.steer id command).Candid := by
  refine .bind (.find _ (status_missing _ _)) fun i => .bind (.command _) fun outcome => ?_
  rcases outcome with fault | _ | _
  · exact .fail (by simp [Failure.status])
  · exact .bind (.read _) fun _ => .pure _
  · exact .bind (.read _) fun _ => .pure _

theorem Operation.candid (op : Operation) : (op.perform c sender).Candid := by
  cases op with
  | showMe => exact .bind (.find _ (status_missing _ _)) fun _ => .bind (.read _) fun _ => .pure _
  | listUsers | listGroups | listInstances | listAuthorities =>
    exact .bind (.read _) fun _ => .pure _
  | showUser id => exact .bind (.find _ (status_missing _ _)) fun _ => .pure _
  | createUser request => exact Users.candid_create request
  | editUser id request => exact Users.candid_edit id request
  | deleteUser id | deleteGroup id => exact .guard (.pure _) (status_missing _ _)
  | grantUser id authority | grantGroup id authority =>
    exact .bind (.find _ (status_missing _ _)) fun _ => .bind (.call _) fun _ => .pure _
  | revokeUser id authority | revokeGroup id authority =>
    exact .guard (.pure _) (status_missingPair _ _ _)
  | showGroup id | showInstance id =>
    exact .bind (.find _ (status_missing _ _)) fun _ => .bind (.read _) fun _ => .pure _
  | createGroup request =>
    exact .bind (.check _) fun _ => .bind (.call _) fun _ => .bind (.read _) fun _ => .pure _
  | renameGroup id request =>
    refine .bind (.check _) fun _ => .bind (.call _) fun renamed => ?_
    cases renamed with
    | none => exact .fail (status_missing _ _)
    | some g => exact .bind (.read _) fun _ => .pure _
  | addMember group user =>
    exact .bind (.find _ (status_missing _ _)) fun _ =>
      .bind (.find _ (status_missing _ _)) fun _ =>
        .bind (.call _) fun _ => .ite (.pure _) (.pure _)
  | removeMember group user =>
    exact .bind (.find _ (status_missing _ _)) fun _ => .guard (.pure _) (status_missingPair _ _ _)
  | createInstance settings =>
    exact .bind (.check _) fun _ => .bind (.call _) fun _ => .bind (.read _) fun _ => .pure _
  | editInstance id settings =>
    refine .bind (.check _) fun _ => .bind (.write _) fun edited => ?_
    cases edited with
    | none => exact .fail (status_missing _ _)
    | some i => exact .bind (.read _) fun _ => .pure _
  | deleteInstance id =>
    refine .bind (.find _ (status_missing _ _)) fun i => .bind (.command _) fun stopped =>
      .bind (.write _) fun _ => ?_
    cases stopped <;> exact .pure _
  | startInstance id | stopInstance id => exact Instances.candid_steer id _

namespace State

variable {s : State} {op : Operation}

/-- An operation that is not answered as a failure has succeeded. -/
theorem effect_of_success
    (h : (s.perform (op.perform c sender)).response.isFailure = false) :
    ∃ a, Effect c sender s.fleet op a (s.perform (op.perform c sender)).state.fleet := by
  rcases hrun : (op.perform c sender).run s.fleet with ⟨failure | a, fleet⟩
  · rw [perform_of_error hrun] at h
    have hstatus : 400 ≤ failure.status := op.candid _ _ _ hrun
    exact absurd hstatus (of_decide_eq_false h)
  · rw [perform_of_ok hrun]
    exact ⟨a, Operation.perform_ok hrun⟩

theorem isFailure_serve {r : Http.Request} (hasked : s.asked c r = some (sender, op)) :
    (s.serve c r).response.isFailure = (s.perform (op.perform c sender)).response.isFailure := by
  rw [serve_of_asked hasked, Http.Response.isFailure, finish_status]
  rfl

/-- Whatever an event does to what is stored, it is the effect of an operation, and the
answer says that it succeeded. -/
theorem next_cases (d : Setup) (hs : s.fleet.store.Sound) (e : Event) :
    (∃ m r sender op a, e = .request m r ∧ s.asked (d.context m) r = some (sender, op) ∧
      (s.serve (d.context m) r).response.isFailure = false ∧
      Effect (d.context m) sender s.fleet op a (s.next d e).fleet) ∨
      s.fleet.Alike (s.next d e).fleet := by
  rcases next_fleet d hs e with ⟨m, r, sender, op, a, rfl, hasked, heffect, -⟩ | halike
  · cases hfailure : (s.serve (d.context m) r).response.isFailure with
    | false => exact .inl ⟨m, r, sender, op, a, rfl, hasked, hfailure, heffect⟩
    | true =>
      rw [isFailure_serve hasked] at hfailure
      rw [next_of_asked hasked]
      exact .inr (perform_of_isFailure hs hfailure).1
  · exact .inr halike

end State
end Service
end BotFleet
