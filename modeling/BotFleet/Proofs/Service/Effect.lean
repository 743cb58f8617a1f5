import BotFleet.Proofs.Daemon.Control
import BotFleet.Proofs.Service.Steps
import BotFleet.Proofs.Store.Integrity
import BotFleet.Service.Serve

/-
What operations do.

`Effect c sender f op a f'` says that the operation `op` answers `a` and turns the
fleet `f` into `f'`.  It has one rule for each way in which an operation can
succeed, and `perform_ok` shows that there are no others, so whatever is to be
shown of every successful request is shown rule by rule.  Nothing below the rules
opens an operation again.
-/

namespace BotFleet
namespace Service

open Json (Message)

/-- A password that is to be stored, if there is one, and what is stored of it. -/
inductive Hashed (c : Context) : Option String → Option String → Prop
  | none : Hashed c none none
  | some {password hash : String} (hvalid : Validation.password password = .ok ())
    (hhash : c.scheme.hash c.config.hashCost c.salt password = .ok hash) :
    Hashed c (some password) (some hash)

inductive Effect (c : Context) (sender : Sender) (f : Fleet) :
    Operation → Answer → Fleet → Prop
  | showMe {u : User} (hu : f.store.user? sender.id = some u) :
    Effect c sender f .showMe (.shown (Message.toJson (f.store.profile u))) f
  | listUsers :
    Effect c sender f .listUsers (.shown (.list (f.store.users.map Message.toJson))) f
  | showUser {id : Id} {u : User} (hu : f.store.user? id = some u) :
    Effect c sender f (.showUser id) (.shown (Message.toJson u)) f
  | createUser {request : NewUser} {hash : String} {u : User} {store : Store}
    (hname : Validation.username request.username = .ok ())
    (hpassword : Validation.password request.password = .ok ())
    (hfree : f.store.userNamed? request.username = none)
    (hhash : c.scheme.hash c.config.hashCost c.salt request.password = .ok hash)
    (hcall : f.store.createUser request.username hash request.enabled c.now = .ok (u, store)) :
    Effect c sender f (.createUser request) (.created (Message.toJson u) .users) { f with store }
  | editUser {id : Id} {request : UserEdit} {hash : Option String} {u : User} {store : Store}
    (hname : ∀ name ∈ request.username, Validation.username name = .ok ())
    (hhash : Hashed c request.password hash)
    (hcall : f.store.updateUser id ⟨request.username, request.enabled, hash⟩ =
      .ok (some u, store)) :
    Effect c sender f (.editUser id request) (.changed (Message.toJson u) .users) { f with store }
  | deleteUser {id : Id} (hhas : Table.has id f.store.users = true) :
    Effect c sender f (.deleteUser id) (.done (some .users))
      { f with store := (f.store.deleteUser id).2 }
  | grantUser {id authority : Id} {u : Unit} {store : Store}
    (hcall : f.store.grantUser id authority = .ok (u, store)) :
    Effect c sender f (.grantUser id authority) (.done (some .users)) { f with store }
  | revokeUser {id authority : Id} (hhas : f.store.userGrants.contains ⟨id, authority⟩ = true) :
    Effect c sender f (.revokeUser id authority) (.done (some .users))
      { f with store := (f.store.revokeUser id authority).2 }
  | listGroups :
    Effect c sender f .listGroups
      (.shown (.list ((f.store.groups.map f.store.groupView).map Message.toJson))) f
  | showGroup {id : Id} {g : Group} (hg : f.store.group? id = some g) :
    Effect c sender f (.showGroup id) (.shown (Message.toJson (f.store.groupView g))) f
  | createGroup {request : GroupRequest} {g : Group} {store : Store}
    (hname : Validation.name "name" request.name = .ok ())
    (hcall : f.store.createGroup request.name = .ok (g, store)) :
    Effect c sender f (.createGroup request)
      (.created (Message.toJson (store.groupView g)) .groups) { f with store }
  | renameGroup {id : Id} {request : GroupRequest} {g : Group} {store : Store}
    (hname : Validation.name "name" request.name = .ok ())
    (hcall : f.store.renameGroup id request.name = .ok (some g, store)) :
    Effect c sender f (.renameGroup id request)
      (.changed (Message.toJson (store.groupView g)) .groups) { f with store }
  | deleteGroup {id : Id} (hhas : Table.has id f.store.groups = true) :
    Effect c sender f (.deleteGroup id) (.done (some .groups))
      { f with store := (f.store.deleteGroup id).2 }
  | addMember {group user : Id} {store : Store}
    (hcall : f.store.addMember group user = .ok (true, store)) :
    Effect c sender f (.addMember group user) (.done (some .groupMembers)) { f with store }
  | stayMember {group user : Id} {store : Store}
    (hcall : f.store.addMember group user = .ok (false, store)) :
    Effect c sender f (.addMember group user) (.done none) { f with store }
  | removeMember {group user : Id} (hhas : f.store.memberships.contains ⟨group, user⟩ = true) :
    Effect c sender f (.removeMember group user) (.done (some .groupMembers))
      { f with store := (f.store.removeMember group user).2 }
  | grantGroup {id authority : Id} {u : Unit} {store : Store}
    (hcall : f.store.grantGroup id authority = .ok (u, store)) :
    Effect c sender f (.grantGroup id authority) (.done (some .groups)) { f with store }
  | revokeGroup {id authority : Id} (hhas : f.store.groupGrants.contains ⟨id, authority⟩ = true) :
    Effect c sender f (.revokeGroup id authority) (.done (some .groups))
      { f with store := (f.store.revokeGroup id authority).2 }
  | listInstances :
    Effect c sender f .listInstances
      (.shown (.list ((f.store.instances.map f.view).map InstanceView.toJson))) f
  | showInstance {id : Id} {i : Instance} (hi : f.store.instance? id = some i) :
    Effect c sender f (.showInstance id) (.shown (f.view i).toJson) f
  | createInstance {settings : Settings} {i : Instance} {store : Store}
    (hvalid : settings.validate = .ok ())
    (hcall : f.store.createInstance settings = .ok (i, store)) :
    Effect c sender f (.createInstance settings) (.created (f.view i).toJson .instances)
      { f with store }
  | editInstance {id : Id} {settings : Settings} {i : Instance} {store : Store}
    (hvalid : settings.validate = .ok ())
    (hcall : f.store.updateInstance id settings = (some i, store)) :
    Effect c sender f (.editInstance id settings) (.changed (f.view i).toJson .instances)
      { f with store }
  | deleteInstance {id : Id} {i : Instance} {stopped : Bool} {control : Daemon.Control}
    (hi : f.store.instance? id = some i) (hstop : f.control.stop i.id = (.ok stopped, control)) :
    Effect c sender f (.deleteInstance id) (.done (some .instances))
      ⟨(f.store.deleteInstance id).2, control⟩
  | dropInstance {id : Id} {i : Instance} {fault : Daemon.Fault} {control : Daemon.Control}
    (hi : f.store.instance? id = some i) (hstop : f.control.stop i.id = (.error fault, control)) :
    Effect c sender f (.deleteInstance id)
      { Answer.done (some .instances) with notices := [Instances.notStopped id fault] }
      ⟨(f.store.deleteInstance id).2, control⟩
  | startInstance {id : Id} {i : Instance} {control : Daemon.Control}
    (hi : f.store.instance? id = some i) (hstart : f.control.start i = (.ok true, control)) :
    Effect c sender f (.startInstance id)
      (.changed (Fleet.view { f with control } i).toJson .instanceState) { f with control }
  | keepStarted {id : Id} {i : Instance} (hi : f.store.instance? id = some i)
    (hrun : f.isRunning i.id = true) :
    Effect c sender f (.startInstance id) (.shown (f.view i).toJson) f
  | stopInstance {id : Id} {i : Instance} {control : Daemon.Control}
    (hi : f.store.instance? id = some i) (hstop : f.control.stop i.id = (.ok true, control)) :
    Effect c sender f (.stopInstance id)
      (.changed (Fleet.view { f with control } i).toJson .instanceState) { f with control }
  | keepStopped {id : Id} {i : Instance} (hi : f.store.instance? id = some i)
    (hrun : f.isRunning i.id = false) :
    Effect c sender f (.stopInstance id) (.shown (f.view i).toJson) f
  | listAuthorities :
    Effect c sender f .listAuthorities
      (.shown (.list (f.store.authorities.map Message.toJson))) f

theorem Users.run_newPassword_ok {c : Context} {password : Option String}
    {next : Option String → Action Answer} {f f' : Fleet} {a : Answer}
    (h : (password.mapM (Users.newPassword c) >>= next).run f = (.ok a, f')) :
    ∃ hash, Hashed c password hash ∧ (next hash).run f = (.ok a, f') := by
  cases password with
  | none => exact ⟨none, .none, h⟩
  | some p =>
    have hmap : (some p).mapM (Users.newPassword c) =
        Users.newPassword c p >>= fun hash => pure (some hash) := Option.mapM_some _ _
    rw [hmap, Action.run_bind_bind, Users.newPassword, Action.run_bind_bind] at h
    obtain ⟨hp, h⟩ := Action.run_check_bind_ok h
    obtain ⟨hash, hhash, h⟩ := Action.run_hash_bind_ok h
    exact ⟨some hash, .some hp hhash, h⟩

/-- What an edit of an account comes to when nothing in it breaks a rule. -/
theorem Users.run_edit_ok {c : Context} {id : Id} {request : UserEdit} {f f' : Fleet} {a : Answer}
    (h : (Users.edit c id request).run f = (.ok a, f')) :
    (∀ name ∈ request.username, Validation.username name = .ok ()) ∧
      ∃ hash u store, Hashed c request.password hash ∧
        f.store.updateUser id ⟨request.username, request.enabled, hash⟩ = .ok (some u, store) ∧
        a = .changed (Message.toJson u) .users ∧ f' = { f with store } := by
  obtain ⟨hname, h⟩ := Action.run_forM_check_bind_ok h
  obtain ⟨hash, hhash, h⟩ := Users.run_newPassword_ok h
  obtain ⟨changed, store, hcall, h⟩ := Action.run_call_bind_ok h
  cases changed with
  | none => cases h
  | some u =>
    cases h
    exact ⟨hname, hash, u, store, hhash, hcall, rfl, rfl⟩

/-- What a command for an instance comes to when the daemon does not refuse it. -/
theorem Instances.run_steer_ok {id : Id} {f f' : Fleet} {a : Answer}
    {command : Instance → Daemon.Control → Except Daemon.Fault Bool × Daemon.Control}
    (h : (Instances.steer id command).run f = (.ok a, f')) :
    ∃ i, f.store.instance? id = some i ∧ ∃ done control,
      command i f.control = (.ok done, control) ∧ f' = { f with control } ∧
        a = if done then .changed (f'.view i).toJson .instanceState
          else .shown (f'.view i).toJson := by
  obtain ⟨i, hi, h⟩ := Action.run_find_bind_ok h
  rw [Action.run_bind, Action.run_command] at h
  refine ⟨i, hi, ?_⟩
  rcases hc : command i f.control with ⟨fault | done, control⟩
  · rw [hc] at h
    cases h
  · rw [hc] at h
    cases done
    · cases h
      exact ⟨false, control, rfl, rfl, rfl⟩
    · cases h
      exact ⟨true, control, rfl, rfl, rfl⟩

namespace Operation

variable {c : Context} {sender : Sender} {f f' : Fleet} {a : Answer}

/-- Only the rules of `Effect` lead to success. -/
theorem perform_ok {op : Operation} (h : (op.perform c sender).run f = (.ok a, f')) :
    Effect c sender f op a f' := by
  cases op with
  | showMe =>
    obtain ⟨u, hu, h⟩ := Action.run_find_bind_ok h
    cases h
    exact .showMe hu
  | listUsers =>
    cases h
    exact .listUsers
  | showUser id =>
    obtain ⟨u, hu, h⟩ := Action.run_find_bind_ok h
    cases h
    exact .showUser hu
  | createUser request =>
    obtain ⟨hname, h⟩ := Action.run_check_bind_ok h
    obtain ⟨hpassword, h⟩ := Action.run_check_bind_ok h
    rw [Action.run_bind, Action.run_read] at h
    dsimp only at h
    split at h
    · cases h
    · rename_i hfree
      obtain ⟨hash, hhash, h⟩ := Action.run_hash_bind_ok h
      obtain ⟨u, store, hcall, h⟩ := Action.run_call_bind_ok h
      cases h
      exact .createUser hname hpassword (by simpa using hfree) hhash hcall
  | editUser id request =>
    obtain ⟨hname, hash, u, store, hhash, hcall, rfl, rfl⟩ := Users.run_edit_ok h
    exact .editUser hname hhash hcall
  | deleteUser id =>
    obtain ⟨hhas, h⟩ := Action.run_write_guard_ok h
    cases h
    exact .deleteUser hhas
  | grantUser id authority =>
    obtain ⟨u, hu, h⟩ := Action.run_find_bind_ok h
    obtain ⟨u, store, hcall, h⟩ := Action.run_call_bind_ok h
    cases h
    exact .grantUser hcall
  | revokeUser id authority =>
    obtain ⟨hhas, h⟩ := Action.run_write_guard_ok h
    cases h
    exact .revokeUser hhas
  | listGroups =>
    cases h
    exact .listGroups
  | showGroup id =>
    obtain ⟨g, hg, h⟩ := Action.run_find_bind_ok h
    cases h
    exact .showGroup hg
  | createGroup request =>
    obtain ⟨hname, h⟩ := Action.run_check_bind_ok h
    obtain ⟨g, store, hcall, h⟩ := Action.run_call_bind_ok h
    cases h
    exact .createGroup hname hcall
  | renameGroup id request =>
    obtain ⟨hname, h⟩ := Action.run_check_bind_ok h
    obtain ⟨renamed, store, hcall, h⟩ := Action.run_call_bind_ok h
    cases renamed with
    | none => cases h
    | some g =>
      cases h
      exact .renameGroup hname hcall
  | deleteGroup id =>
    obtain ⟨hhas, h⟩ := Action.run_write_guard_ok h
    cases h
    exact .deleteGroup hhas
  | addMember group user =>
    obtain ⟨g, hg, h⟩ := Action.run_find_bind_ok h
    obtain ⟨u, hu, h⟩ := Action.run_find_bind_ok h
    obtain ⟨added, store, hcall, h⟩ := Action.run_call_bind_ok h
    cases added with
    | false =>
      cases h
      exact .stayMember hcall
    | true =>
      cases h
      exact .addMember hcall
  | removeMember group user =>
    obtain ⟨g, hg, h⟩ := Action.run_find_bind_ok h
    obtain ⟨hhas, h⟩ := Action.run_write_guard_ok h
    cases h
    exact .removeMember hhas
  | grantGroup id authority =>
    obtain ⟨g, hg, h⟩ := Action.run_find_bind_ok h
    obtain ⟨u, store, hcall, h⟩ := Action.run_call_bind_ok h
    cases h
    exact .grantGroup hcall
  | revokeGroup id authority =>
    obtain ⟨hhas, h⟩ := Action.run_write_guard_ok h
    cases h
    exact .revokeGroup hhas
  | listInstances =>
    cases h
    exact .listInstances
  | showInstance id =>
    obtain ⟨i, hi, h⟩ := Action.run_find_bind_ok h
    cases h
    exact .showInstance hi
  | createInstance settings =>
    obtain ⟨hvalid, h⟩ := Action.run_check_bind_ok h
    obtain ⟨i, store, hcall, h⟩ := Action.run_call_bind_ok h
    cases h
    exact .createInstance hvalid hcall
  | editInstance id settings =>
    obtain ⟨hvalid, h⟩ := Action.run_check_bind_ok h
    rw [Action.run_bind, Action.run_write] at h
    rcases hcall : f.store.updateInstance id settings with ⟨_ | i, store⟩
    · rw [hcall] at h
      cases h
    · rw [hcall] at h
      cases h
      exact .editInstance hvalid hcall
  | deleteInstance id =>
    obtain ⟨i, hi, h⟩ := Action.run_find_bind_ok h
    rw [Action.run_bind, Action.run_command] at h
    rcases hstop : f.control.stop i.id with ⟨fault | stopped, control⟩
    · rw [hstop] at h
      cases h
      exact .dropInstance hi hstop
    · rw [hstop] at h
      cases h
      exact .deleteInstance hi hstop
  | startInstance id =>
    obtain ⟨i, hi, started, control, hstart, rfl, rfl⟩ := Instances.run_steer_ok h
    cases started
    · obtain ⟨hrun, rfl⟩ := Daemon.Control.start_eq_ok_false hstart
      exact .keepStarted hi hrun
    · exact .startInstance hi hstart
  | stopInstance id =>
    obtain ⟨i, hi, stopped, control, hstop, rfl, rfl⟩ := Instances.run_steer_ok h
    cases stopped
    · obtain ⟨hrun, rfl⟩ := Daemon.Control.stop_eq_ok_false hstop
      exact .keepStopped hi hrun
    · exact .stopInstance hi hstop
  | listAuthorities =>
    cases h
    exact .listAuthorities

end Operation

/-- Every operation that succeeds keeps a sound store sound. -/
theorem Effect.sound {c : Context} {sender : Sender} {f f' : Fleet} {op : Operation} {a : Answer}
    (h : Effect c sender f op a f') (hs : f.store.Sound) : f'.store.Sound := by
  cases h with
  | createUser _ _ _ _ hcall => exact hs.createUser hcall
  | editUser _ _ hcall => exact hs.updateUser hcall
  | deleteUser => exact hs.deleteUser _
  | grantUser hcall => exact hs.grantUser hcall
  | revokeUser => exact hs.revokeUser _ _
  | createGroup _ hcall => exact hs.createGroup hcall
  | renameGroup _ hcall => exact hs.renameGroup hcall
  | deleteGroup => exact hs.deleteGroup _
  | addMember hcall | stayMember hcall => exact hs.addMember hcall
  | removeMember => exact hs.removeMember _ _
  | grantGroup hcall => exact hs.grantGroup hcall
  | revokeGroup => exact hs.revokeGroup _ _
  | createInstance _ hcall => exact hs.createInstance hcall
  | editInstance _ hcall => exact hs.updateInstance hcall
  | deleteInstance | dropInstance => exact hs.deleteInstance _
  | showMe | listUsers | showUser | listGroups | showGroup | listInstances | showInstance
  | startInstance | keepStarted | stopInstance | keepStopped | listAuthorities => exact hs

end Service
end BotFleet
