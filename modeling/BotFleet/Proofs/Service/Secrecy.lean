import BotFleet.Proofs.Service.Bearer
import BotFleet.Proofs.Service.Listing
import BotFleet.Proofs.Service.Orphan
import BotFleet.Proofs.Store.Veil

/-
What the passwords that are stored can be told from.

Two states are alike under the veil if they differ in the passwords of accounts and
instances at most.  What the daemon has been sent lies under the veil too, since a
request that starts an instance carries its password, but what the daemon is going to
answer does not.  An action that is run on two such states meets different rows on its
way, so its steps are compared in pairs, by what is seen of their results.  In the end
nothing is left of the difference but the stored passwords themselves.

A login is the one request whose answer depends on a password, and even a login leaves
both states as they were.
-/

namespace BotFleet

/-! ## The daemon -/

namespace Daemon

/-- The link without the requests that have arrived. -/
def Link.veiled (l : Link) : Link := { l with exchanges := [] }

/-- The outcome of a request does not depend on what it carries. -/
theorem Link.post_congr {l l' : Link} (h : l.veiled = l'.veiled) (path : String)
    (body body' : Json) :
    (l.post path body).1 = (l'.post path body').1 ∧
      (l.post path body).2.veiled = (l'.post path body').2.veiled := by
  obtain ⟨base, pending, otherwise, exchanges⟩ := l
  obtain ⟨base', pending', otherwise', exchanges'⟩ := l'
  rw [veiled, veiled, mk.injEq] at h
  obtain ⟨rfl, rfl, rfl, -⟩ := h
  have hnext : next ⟨base, pending, otherwise, exchanges⟩ =
      next ⟨base, pending, otherwise, exchanges'⟩ := rfl
  refine ⟨rfl, ?_⟩
  show Link.veiled (record _ path body) = Link.veiled (record _ path body')
  rw [record, record, hnext]
  cases next ⟨base, pending, otherwise, exchanges'⟩ <;> rfl

namespace Control

def veiled (c : Control) : Control := { c with link := c.link.veiled }

variable {c c' : Control}

theorem isRunning_congr (h : c.veiled = c'.veiled) (id : Id) : c.isRunning id = c'.isRunning id := by
  show c.veiled.isRunning id = c'.veiled.isRunning id
  rw [h]

theorem start_congr (h : c.veiled = c'.veiled) {i i' : Instance} (hi : i.veiled = i'.veiled) :
    (c.start i).1 = (c'.start i').1 ∧ (c.start i).2.veiled = (c'.start i').2.veiled := by
  have hid : i.id = i'.id := by
    show i.veiled.id = i'.veiled.id
    rw [hi]
  have hrunning : c.veiled.running = c'.veiled.running := congrArg running h
  have hlink : c.veiled.link = c'.veiled.link := congrArg link h
  unfold start
  rw [hid, isRunning_congr h]
  by_cases hrun : c'.isRunning i'.id
  · rw [if_pos hrun, if_pos hrun]
    exact ⟨rfl, h⟩
  · rw [if_neg hrun, if_neg hrun]
    dsimp only
    generalize Json.Message.toJson (LoadRequest.ofInstance i initialVolume) = body
    generalize Json.Message.toJson (LoadRequest.ofInstance i' initialVolume) = body'
    obtain ⟨hfst, hsnd⟩ := Link.post_congr hlink "/instance/start" body body'
    rcases hpost : c.link.post "/instance/start" body with ⟨_ | u, l⟩ <;>
      rcases hpost' : c'.link.post "/instance/start" body' with ⟨_ | u', l'⟩ <;>
      rw [hpost, hpost'] at hfst hsnd <;> cases hfst
    · exact ⟨rfl, congrArg₂ mk hrunning hsnd⟩
    · exact ⟨rfl, congrArg₂ mk (congrArg (insert i'.id) hrunning) hsnd⟩

theorem stop_congr (h : c.veiled = c'.veiled) (id : Id) :
    (c.stop id).1 = (c'.stop id).1 ∧ (c.stop id).2.veiled = (c'.stop id).2.veiled := by
  have hrunning : c.veiled.running = c'.veiled.running := congrArg running h
  have hlink : c.veiled.link = c'.veiled.link := congrArg link h
  unfold stop
  rw [isRunning_congr h]
  by_cases hrun : !c'.isRunning id
  · rw [if_pos hrun, if_pos hrun]
    exact ⟨rfl, h⟩
  · rw [if_neg hrun, if_neg hrun]
    generalize Json.Message.toJson (StopRequest.mk id) = body
    obtain ⟨hfst, hsnd⟩ := Link.post_congr hlink "/instance/stop" body body
    rcases hpost : c.link.post "/instance/stop" body with ⟨_ | u, l⟩ <;>
      rcases hpost' : c'.link.post "/instance/stop" body with ⟨_ | u', l'⟩ <;>
      rw [hpost, hpost'] at hfst hsnd <;> cases hfst
    · exact ⟨rfl, congrArg₂ mk hrunning hsnd⟩
    · exact ⟨rfl, congrArg₂ mk (congrArg (List.filter (· != id)) hrunning) hsnd⟩

end Control
end Daemon

namespace Service

open Http (Request)
open Json (Message)

def Fleet.veiled (f : Fleet) : Fleet := ⟨f.store.veiled, f.control.veiled⟩

/-! ## Actions -/

namespace Action

variable {α β γ δ : Type}

/-- On fleets that are alike under the veil the two actions end alike, as far as `seen` shows
of their results, and leave fleets behind that are alike again. -/
def Indistinct (seen : α → γ) (a b : Action α) : Prop :=
  ∀ f g : Fleet, f.veiled = g.veiled →
    (a.run f).1.map seen = (b.run g).1.map seen ∧ (a.run f).2.veiled = (b.run g).2.veiled

variable {seen : α → γ} {a b : Action α}

theorem indistinct_pure {x y : α} (h : seen x = seen y) : Indistinct seen (pure x) (pure y) :=
  fun _ _ hfg => ⟨congrArg Except.ok h, hfg⟩

theorem indistinct_fail (failure : Failure) :
    Indistinct seen (fail failure : Action α) (fail failure) :=
  fun _ _ hfg => ⟨rfl, hfg⟩

theorem Indistinct.bind {seen' : β → δ} {next next' : α → Action β} (h : Indistinct seen a b)
    (hnext : ∀ x y, seen x = seen y → Indistinct seen' (next x) (next' y)) :
    Indistinct seen' (a >>= next) (b >>= next') := by
  intro f g hfg
  obtain ⟨hresult, hfleet⟩ := h f g hfg
  rw [run_bind, run_bind]
  rcases hf : a.run f with ⟨failure | x, f'⟩ <;> rcases hg : b.run g with ⟨failure' | y, g'⟩ <;>
    rw [hf, hg] at hresult hfleet
  · cases hresult
    exact ⟨rfl, hfleet⟩
  · cases hresult
  · cases hresult
  · exact hnext x y (Except.ok.inj hresult) f' g' hfleet

/-- What is seen in full goes on as one and the same action. -/
theorem Indistinct.andThen {seen' : β → δ} {next next' : α → Action β} (h : Indistinct id a b)
    (hnext : ∀ x, Indistinct seen' (next x) (next' x)) :
    Indistinct seen' (a >>= next) (b >>= next') := by
  refine h.bind ?_
  rintro x _ rfl
  exact hnext x

theorem indistinct_read {view : Fleet → α} (shown : Fleet → γ)
    (h : ∀ f, shown f.veiled = seen (view f)) : Indistinct seen (read view) (read view) := by
  intro f g hfg
  have hview : seen (view f) = seen (view g) := by rw [← h f, ← h g, hfg]
  exact ⟨congrArg Except.ok hview, hfg⟩

theorem indistinct_find {view : Fleet → Option α} (shown : Fleet → Option γ) (missing : Failure)
    (h : ∀ f, shown f.veiled = (view f).map seen) :
    Indistinct seen (find view missing) (find view missing) := by
  intro f g hfg
  have hview : (view f).map seen = (view g).map seen := by rw [← h f, ← h g, hfg]
  rw [run_find, run_find]
  cases hf : view f <;> cases hg : view g <;> rw [hf, hg] at hview
  · exact ⟨rfl, hfg⟩
  · cases hview
  · cases hview
  · exact ⟨congrArg Except.ok (Option.some.inj hview), hfg⟩

theorem indistinct_check (result : Except Violation Unit) :
    Indistinct id (check result) (check result) :=
  fun _ _ hfg => ⟨rfl, hfg⟩

theorem indistinct_hash (c : Context) (password : String) :
    Indistinct id (hash c password) (hash c password) :=
  fun _ _ hfg => ⟨rfl, hfg⟩

theorem indistinct_call {g : Store → Store.Call α} (shown : Store → Store.Call γ)
    (h : ∀ s, shown s.veiled = (g s).map (Prod.map seen Store.veiled)) :
    Indistinct seen (call g) (call g) := by
  intro f f' hff
  have hstore : f.store.veiled = f'.store.veiled := congrArg Fleet.store hff
  have hcall : (g f.store).map (Prod.map seen Store.veiled) =
      (g f'.store).map (Prod.map seen Store.veiled) := by
    rw [← h, ← h, hstore]
  rw [run_call, run_call]
  rcases hf : g f.store with fault | ⟨x, store⟩ <;>
    rcases hf' : g f'.store with fault' | ⟨y, store'⟩ <;> rw [hf, hf'] at hcall
  · cases hcall
    exact ⟨rfl, hff⟩
  · cases hcall
  · cases hcall
  · obtain ⟨hx, hs⟩ := Prod.mk.inj (Except.ok.inj hcall)
    exact ⟨congrArg Except.ok hx, congrArg₂ Fleet.mk hs (congrArg Fleet.control hff)⟩

theorem indistinct_write {g : Store → α × Store} (shown : Store → γ × Store)
    (h : ∀ s, shown s.veiled = Prod.map seen Store.veiled (g s)) :
    Indistinct seen (write g) (write g) := by
  intro f f' hff
  have hstore : f.store.veiled = f'.store.veiled := congrArg Fleet.store hff
  have hwrite : Prod.map seen Store.veiled (g f.store) =
      Prod.map seen Store.veiled (g f'.store) := by
    rw [← h, ← h, hstore]
  obtain ⟨hx, hs⟩ := Prod.mk.inj hwrite
  exact ⟨congrArg Except.ok hx, congrArg₂ Fleet.mk hs (congrArg Fleet.control hff)⟩

theorem indistinct_command
    {g g' : Daemon.Control → Except Daemon.Fault Bool × Daemon.Control}
    (h : ∀ k k' : Daemon.Control, k.veiled = k'.veiled →
      (g k).1 = (g' k').1 ∧ (g k).2.veiled = (g' k').2.veiled) :
    Indistinct id (command g) (command g') := by
  intro f f' hff
  obtain ⟨hresult, hcontrol⟩ := h f.control f'.control (congrArg Fleet.control hff)
  exact ⟨congrArg Except.ok hresult, congrArg₂ Fleet.mk (congrArg Fleet.store hff) hcontrol⟩

end Action

/-! ## Operations -/

section Operations

open Service.Action

theorem Action.indistinct_guard {g : Store → Bool × Store} {done : Action Answer}
    {missing : Failure} (h : ∀ s : Store, g s.veiled = Prod.map id Store.veiled (g s))
    (hdone : Indistinct id done done) :
    Indistinct id (do if ← write g then done else fail missing : Action Answer)
      (do if ← write g then done else fail missing) := by
  refine (indistinct_write g h).andThen fun removed => ?_
  cases removed
  · exact indistinct_fail missing
  · exact hdone

namespace Users

theorem toJson_congr {u v : User} (h : u.veiled = v.veiled) : Message.toJson u = Message.toJson v := by
  rw [← u.toJson_veiled, h, v.toJson_veiled]

theorem indistinct_list : Indistinct id list list := by
  have hread : Indistinct (List.map User.veiled) (read fun f => f.store.users)
      (read fun f => f.store.users) :=
    indistinct_read (fun f => f.store.users) fun _ => rfl
  have hjson : ∀ us : List User, us.map Message.toJson = (us.map User.veiled).map Message.toJson := by
    intro us
    rw [List.map_map]
    rfl
  exact hread.bind fun us vs h => indistinct_pure (by rw [hjson us, h, ← hjson vs])

theorem indistinct_find (key : Id) : Indistinct User.veiled (find key) (find key) :=
  Action.indistinct_find (fun f => f.store.user? key) _ fun f => f.store.user?_veiled key

theorem indistinct_get (key : Id) : Indistinct id (get key) (get key) :=
  (indistinct_find key).bind fun _ _ h => indistinct_pure (by rw [toJson_congr h])

theorem indistinct_create (c : Context) (request : NewUser) :
    Indistinct id (create c request) (create c request) := by
  have hnamed : Indistinct (Option.map User.veiled)
      (read fun f => f.store.userNamed? request.username)
      (read fun f => f.store.userNamed? request.username) :=
    indistinct_read (fun f => f.store.userNamed? request.username) fun f =>
      f.store.userNamed?_veiled request.username
  refine (indistinct_check _).andThen fun _ => (indistinct_check _).andThen fun _ =>
    hnamed.bind fun u v h => ?_
  have htaken : u.isSome = v.isSome := by rw [← Option.isSome_map, h, Option.isSome_map]
  rw [htaken]
  split
  · exact indistinct_fail _
  · exact (indistinct_hash c _).andThen fun hash =>
      (indistinct_call _ fun s => s.createUser_veiled request.username hash request.enabled
        c.now).bind fun _ _ h => indistinct_pure (by rw [toJson_congr h])

theorem indistinct_newPassword (c : Context) (password : String) :
    Indistinct id (newPassword c password) (newPassword c password) :=
  (indistinct_check _).andThen fun _ => indistinct_hash c password

theorem indistinct_edit (c : Context) (key : Id) (request : UserEdit) :
    Indistinct id (edit c key request) (edit c key request) := by
  have hname : Indistinct id (request.username.forM fun name => check (Validation.username name))
      (request.username.forM fun name => check (Validation.username name)) := by
    cases request.username with
    | none => exact indistinct_pure rfl
    | some name => exact indistinct_check _
  have hhash : Indistinct id (request.password.mapM (newPassword c))
      (request.password.mapM (newPassword c)) := by
    cases request.password with
    | none => exact indistinct_pure rfl
    | some password =>
      rw [Option.mapM_some]
      exact (indistinct_newPassword c password).andThen fun _ => indistinct_pure rfl
  refine hname.andThen fun _ => hhash.andThen fun hash => ?_
  refine (indistinct_call _ fun s => s.updateUser_veiled key
    ⟨request.username, request.enabled, hash⟩).bind fun u v h => ?_
  cases u <;> cases v
  · exact indistinct_fail _
  · cases h
  · cases h
  · exact indistinct_pure (by rw [toJson_congr (Option.some.inj h)])

theorem indistinct_delete (key : Id) : Indistinct id (delete key) (delete key) :=
  indistinct_guard (fun s => s.deleteUser_veiled key) (indistinct_pure rfl)

theorem indistinct_grant (key authority : Id) :
    Indistinct id (grant key authority) (grant key authority) :=
  (indistinct_find key).bind fun _ _ _ =>
    (indistinct_call _ fun s => s.grantUser_veiled key authority).andThen fun _ =>
      indistinct_pure rfl

theorem indistinct_revoke (key authority : Id) :
    Indistinct id (revoke key authority) (revoke key authority) :=
  indistinct_guard (fun s => s.revokeUser_veiled key authority) (indistinct_pure rfl)

end Users

namespace Groups

theorem indistinct_list : Indistinct id list list :=
  Indistinct.andThen
    (indistinct_read (fun f => f.store.groups.map f.store.groupView) fun _ => rfl)
    fun _ => indistinct_pure rfl

theorem indistinct_find (key : Id) : Indistinct id (find key) (find key) :=
  Action.indistinct_find (fun f => f.store.group? key) _ fun _ => Option.map_id_apply.symm

theorem indistinct_view (g : Group) : Indistinct id (view g) (view g) :=
  indistinct_read (fun f => Message.toJson (f.store.groupView g)) fun _ => rfl

theorem indistinct_get (key : Id) : Indistinct id (get key) (get key) :=
  (indistinct_find key).andThen fun g => (indistinct_view g).andThen fun _ => indistinct_pure rfl

theorem indistinct_create (request : GroupRequest) :
    Indistinct id (create request) (create request) :=
  (indistinct_check _).andThen fun _ =>
    (indistinct_call _ fun s => s.createGroup_veiled request.name).andThen fun g =>
      (indistinct_view g).andThen fun _ => indistinct_pure rfl

theorem indistinct_rename (key : Id) (request : GroupRequest) :
    Indistinct id (rename key request) (rename key request) := by
  refine (indistinct_check _).andThen fun _ =>
    (indistinct_call _ fun s => s.renameGroup_veiled key request.name).andThen fun renamed => ?_
  cases renamed with
  | none => exact indistinct_fail _
  | some g => exact (indistinct_view g).andThen fun _ => indistinct_pure rfl

theorem indistinct_delete (key : Id) : Indistinct id (delete key) (delete key) :=
  indistinct_guard (fun s => s.deleteGroup_veiled key) (indistinct_pure rfl)

theorem indistinct_addMember (group user : Id) :
    Indistinct id (addMember group user) (addMember group user) := by
  refine (indistinct_find group).andThen fun _ => (Users.indistinct_find user).bind fun _ _ _ =>
    (indistinct_call _ fun s => s.addMember_veiled group user).andThen fun added => ?_
  cases added <;> exact indistinct_pure rfl

theorem indistinct_removeMember (group user : Id) :
    Indistinct id (removeMember group user) (removeMember group user) :=
  (indistinct_find group).andThen fun _ =>
    indistinct_guard (fun s => s.removeMember_veiled group user) (indistinct_pure rfl)

theorem indistinct_grant (key authority : Id) :
    Indistinct id (grant key authority) (grant key authority) :=
  (indistinct_find key).andThen fun _ =>
    (indistinct_call _ fun s => s.grantGroup_veiled key authority).andThen fun _ =>
      indistinct_pure rfl

theorem indistinct_revoke (key authority : Id) :
    Indistinct id (revoke key authority) (revoke key authority) :=
  indistinct_guard (fun s => s.revokeGroup_veiled key authority) (indistinct_pure rfl)

end Groups

namespace Instances

variable {i j : Instance}

/-- What clients see of an instance is the same without its password. -/
theorem view_congr (h : i.veiled = j.veiled) : view i = view j := by
  show view i.veiled = view j.veiled
  rw [h]

theorem id_congr (h : i.veiled = j.veiled) : i.id = j.id := by
  show i.veiled.id = j.veiled.id
  rw [h]

theorem indistinct_view (h : i.veiled = j.veiled) : Indistinct id (view i) (view j) := by
  rw [view_congr h]
  exact indistinct_read (fun f => (f.view j).toJson) fun _ => rfl

theorem indistinct_list : Indistinct id list list := by
  have hread : Indistinct (List.map InstanceView.toJson)
      (read fun f => f.store.instances.map f.view) (read fun f => f.store.instances.map f.view) := by
    refine indistinct_read (fun f => (f.store.instances.map f.view).map InstanceView.toJson)
      fun f => ?_
    show ((f.store.instances.map Instance.veiled).map f.veiled.view).map InstanceView.toJson = _
    rw [List.map_map, List.map_map, List.map_map]
    rfl
  exact hread.bind fun _ _ h => indistinct_pure (congrArg (fun views => Answer.shown (.list views)) h)

theorem indistinct_find (key : Id) : Indistinct Instance.veiled (find key) (find key) :=
  Action.indistinct_find (fun f => f.store.instance? key) _ fun f => f.store.instance?_veiled key

theorem indistinct_get (key : Id) : Indistinct id (get key) (get key) :=
  (indistinct_find key).bind fun _ _ h => (indistinct_view h).andThen fun _ => indistinct_pure rfl

theorem indistinct_create (settings : Settings) :
    Indistinct id (create settings) (create settings) :=
  (indistinct_check _).andThen fun _ =>
    (indistinct_call _ fun s => s.createInstance_veiled settings).bind fun _ _ h =>
      (indistinct_view h).andThen fun _ => indistinct_pure rfl

theorem indistinct_edit (key : Id) (settings : Settings) :
    Indistinct id (edit key settings) (edit key settings) := by
  refine (indistinct_check _).andThen fun _ =>
    (indistinct_write _ fun s => s.updateInstance_veiled key settings).bind fun edited edited' h => ?_
  cases edited <;> cases edited'
  · exact indistinct_fail _
  · cases h
  · cases h
  · exact (indistinct_view (Option.some.inj h)).andThen fun _ => indistinct_pure rfl

theorem indistinct_delete (key : Id) : Indistinct id (delete key) (delete key) := by
  refine (indistinct_find key).bind fun i j h => ?_
  rw [id_congr h]
  refine (indistinct_command fun _ _ hk => Daemon.Control.stop_congr hk j.id).andThen
    fun stopped => (indistinct_write _ fun s => s.deleteInstance_veiled key).andThen fun _ => ?_
  cases stopped <;> exact indistinct_pure rfl

theorem indistinct_steer (key : Id)
    {command : Instance → Daemon.Control → Except Daemon.Fault Bool × Daemon.Control}
    (hcommand : ∀ i j k k', Instance.veiled i = Instance.veiled j →
      Daemon.Control.veiled k = Daemon.Control.veiled k' →
      (command i k).1 = (command j k').1 ∧ (command i k).2.veiled = (command j k').2.veiled) :
    Indistinct id (steer key command) (steer key command) := by
  refine (indistinct_find key).bind fun i j h =>
    (indistinct_command fun k k' hk => hcommand i j k k' h hk).andThen fun result => ?_
  rcases result with fault | _ | _
  · exact indistinct_fail _
  · exact (indistinct_view h).andThen fun _ => indistinct_pure rfl
  · exact (indistinct_view h).andThen fun _ => indistinct_pure rfl

end Instances

theorem indistinct_showMe (sender : Sender) :
    Indistinct id sender.showMe sender.showMe := by
  refine (Users.indistinct_find sender.id).bind fun u v h => ?_
  have hprofile : (fun f : Fleet => f.store.profile u) = fun f => f.store.profile v := by
    show (fun f : Fleet => f.store.profile u.veiled) = fun f => f.store.profile v.veiled
    rw [h]
  rw [hprofile]
  exact Indistinct.andThen (indistinct_read (fun f => f.store.profile v) fun _ => rfl) fun _ =>
    indistinct_pure rfl

/-- No operation lets anything be seen of a stored password. -/
theorem Operation.indistinct_perform (c : Context) (sender : Sender) (op : Operation) :
    Indistinct id (op.perform c sender) (op.perform c sender) := by
  cases op with
  | showMe => exact indistinct_showMe sender
  | listUsers => exact Users.indistinct_list
  | showUser key => exact Users.indistinct_get key
  | createUser request => exact Users.indistinct_create c request
  | editUser key request => exact Users.indistinct_edit c key request
  | deleteUser key => exact Users.indistinct_delete key
  | grantUser key authority => exact Users.indistinct_grant key authority
  | revokeUser key authority => exact Users.indistinct_revoke key authority
  | listGroups => exact Groups.indistinct_list
  | showGroup key => exact Groups.indistinct_get key
  | createGroup request => exact Groups.indistinct_create request
  | renameGroup key request => exact Groups.indistinct_rename key request
  | deleteGroup key => exact Groups.indistinct_delete key
  | addMember group user => exact Groups.indistinct_addMember group user
  | removeMember group user => exact Groups.indistinct_removeMember group user
  | grantGroup key authority => exact Groups.indistinct_grant key authority
  | revokeGroup key authority => exact Groups.indistinct_revoke key authority
  | listInstances => exact Instances.indistinct_list
  | showInstance key => exact Instances.indistinct_get key
  | createInstance settings => exact Instances.indistinct_create settings
  | editInstance key settings => exact Instances.indistinct_edit key settings
  | deleteInstance key => exact Instances.indistinct_delete key
  | startInstance key =>
    exact Instances.indistinct_steer key fun _ _ _ _ hi hk => Daemon.Control.start_congr hk hi
  | stopInstance key =>
    refine Instances.indistinct_steer key fun i j _ _ hi hk => ?_
    rw [Instances.id_congr hi]
    exact Daemon.Control.stop_congr hk j.id
  | listAuthorities =>
    exact Indistinct.andThen (indistinct_read (fun f => f.store.authorities) fun _ => rfl)
      fun _ => indistinct_pure rfl

end Operations

/-! ## Requests -/

section Requests

variable {c : Context}

/-- A token is good for the same account whatever its password is. -/
theorem Sender.ofToken_veiled (store : Store) (token : String) :
    ofToken c store.veiled token = ofToken c store token := by
  have henabled : ∀ id, (store.veiled.user? id).filter (·.enabled) =
      ((store.user? id).filter (·.enabled)).map User.veiled := by
    intro id
    rw [Store.user?_veiled, Option.filter_map]
    rfl
  simp only [ofToken, henabled]
  cases Token.verify c.config.secret c.seconds token with
  | error e => rfl
  | ok claims =>
    cases hid : claims.userId? with
    | none => simp only [hid]
    | some id =>
      simp only [hid]
      cases (store.user? id).filter (·.enabled) <;> rfl

theorem Sender.identify_veiled (store : Store) (headers : List Http.Header) (target : Http.Target) :
    identify c store.veiled headers target = identify c store headers target := by
  unfold identify
  cases Http.Credentials.token? headers target with
  | none => rfl
  | some token => exact ofToken_veiled store token

def State.veiled (s : State) : State := ⟨s.fleet.veiled, s.registry⟩

/-- What came of a request, with what it left behind under the veil. -/
def Served.veiled (served : Served) : Served := { served with state := served.state.veiled }

namespace State

variable {s t : State} {r : Request}

theorem fleet_congr (h : s.veiled = t.veiled) : s.fleet.veiled = t.fleet.veiled :=
  congrArg fleet h

theorem registry_congr (h : s.veiled = t.veiled) : s.registry = t.registry := by
  show s.veiled.registry = t.veiled.registry
  rw [h]

theorem veiled_congr {f g : Fleet} {registry registry' : Registry} (hfleet : f.veiled = g.veiled)
    (hregistry : registry = registry') :
    veiled ⟨f, registry⟩ = veiled ⟨g, registry'⟩ :=
  congrArg₂ mk hfleet hregistry

theorem identify_congr (h : s.veiled = t.veiled) (headers : List Http.Header)
    (target : Http.Target) :
    Sender.identify c s.fleet.store headers target =
      Sender.identify c t.fleet.store headers target := by
  have hstore : s.fleet.store.veiled = t.fleet.store.veiled :=
    congrArg Fleet.store (fleet_congr h)
  rw [← Sender.identify_veiled, hstore, Sender.identify_veiled]

/-- Answers that are the same are so still with the states that they leave behind. -/
theorem served_congr (h : s.veiled = t.veiled) (response : Http.Response) (notices : List Notice) :
    Served.veiled ⟨response, s, notices⟩ = Served.veiled ⟨response, t, notices⟩ :=
  congrArg (fun s => Served.mk response s notices) h

theorem perform_congr (h : s.veiled = t.veiled) {action : Action Answer}
    (haction : Action.Indistinct id action action) :
    (s.perform action).veiled = (t.perform action).veiled := by
  obtain ⟨hresult, hfleet⟩ := haction s.fleet t.fleet (fleet_congr h)
  rcases hs : action.run s.fleet with ⟨failure | answer, f⟩ <;>
    rcases ht : action.run t.fleet with ⟨failure' | answer', g⟩ <;> rw [hs, ht] at hresult hfleet
  · cases hresult
    rw [perform_of_error hs, perform_of_error ht]
    exact served_congr (veiled_congr hfleet (registry_congr h)) _ _
  · cases hresult
  · cases hresult
  · cases hresult
    rw [perform_of_ok hs, perform_of_ok ht, registry_congr h]
    exact served_congr (veiled_congr hfleet rfl) _ _

theorem openSocket_congr (h : s.veiled = t.veiled) :
    (s.openSocket c).veiled = (t.openSocket c).veiled := by
  unfold openSocket
  rw [registry_congr h]
  cases t.registry.connect c.session with
  | ok registry => exact served_congr (veiled_congr (fleet_congr h) rfl) _ _
  | error e => exact served_congr h _ _

theorem identified_congr {α : Type} {route : Route} {work : Option α}
    {next next' : Sender → α → Served} (h : s.veiled = t.veiled)
    (hnext : ∀ sender work, (next sender work).veiled = (next' sender work).veiled) :
    (s.identified c route r work next).veiled = (t.identified c route r work next').veiled := by
  unfold identified
  rw [identify_congr h]
  cases Sender.identify c t.fleet.store r.headers r.target <;> cases work
  · exact served_congr h _ _
  · exact served_congr h _ _
  · exact served_congr h _ _
  · exact hnext _ _

/-- Only the path of logging in leads to a login. -/
theorem path_of_login {path : String} (h : Route.ofPath? path = some .login) :
    path = "/api/auth/login" :=
  String.toList_inj.mp (toList_of_segments (Route.segments_of_ofPath? h))

theorem serveRoute_congr (h : s.veiled = t.veiled)
    (hlogin : ¬(r.verb = .post ∧ r.path = "/api/auth/login")) :
    (s.serveRoute c r).veiled = (t.serveRoute c r).veiled := by
  unfold serveRoute
  cases hpath : Route.ofPath? r.path with
  | none => exact served_congr h _ _
  | some route =>
    cases route with
    | login =>
      have hverb : r.verb ∉ Route.login.allowed := fun hallowed =>
        hlogin ⟨List.mem_singleton.mp hallowed, path_of_login hpath⟩
      show (s.serveLogin c r).veiled = (t.serveLogin c r).veiled
      rw [serveLogin, serveLogin, if_neg hverb, if_neg hverb]
      exact served_congr h _ _
    | socket =>
      refine identified_congr h fun _ handshake => ?_
      cases handshake with
      | error rejection => exact served_congr h _ _
      | ok => exact openSocket_congr h
    | resource resource =>
      refine identified_congr h fun sender reader => ?_
      cases reader r with
      | error rejection => exact served_congr h _ _
      | ok op => exact perform_congr h (op.indistinct_perform c sender)

/-- A request that is not a login is answered alike in states that are alike under the veil. -/
theorem serve_congr (h : s.veiled = t.veiled)
    (hlogin : ¬(r.verb = .post ∧ r.path = "/api/auth/login")) :
    (s.serve c r).veiled = (t.serve c r).veiled := by
  have hfinish : ∀ served served' : Served, served.veiled = served'.veiled →
      (finish c r served).veiled = (finish c r served').veiled := by
    intro served served' h
    show finish c r served.veiled = finish c r served'.veiled
    rw [h]
  by_cases hverb : r.verb = .options
  · rw [serve, serve, if_pos hverb, if_pos hverb]
    exact hfinish (s.preflight r) (t.preflight r) (served_congr h _ _)
  · rw [serve, serve, if_neg hverb, if_neg hverb]
    exact hfinish (s.serveRoute c r) (t.serveRoute c r) (serveRoute_congr h hlogin)

/-! ## Runs -/

variable {d : Setup}

/-- A login may be answered differently, but it changes nothing. -/
theorem next_congr (h : s.veiled = t.veiled) (e : Event) :
    (s.next d e).veiled = (t.next d e).veiled := by
  cases e with
  | request m r =>
    show (s.serve (d.context m) r).state.veiled = (t.serve (d.context m) r).state.veiled
    by_cases hlogin : r.verb = .post ∧ r.path = "/api/auth/login"
    · obtain ⟨hverb, hpath⟩ := hlogin
      have hoptions : r.verb ≠ .options := by
        rw [hverb]
        decide
      have hstate : ∀ s : State, (s.serve (d.context m) r).state = s := by
        intro s
        rw [serve_of_login hoptions hpath]
        exact serveLogin_state
      rw [hstate s, hstate t, h]
    · exact congrArg Served.state (serve_congr h hlogin)
  | received session item =>
    show (s.receive session item).veiled = (t.receive session item).veiled
    unfold receive
    rw [registry_congr h]
    cases t.registry.find? session with
    | none => exact h
    | some found => exact veiled_congr (fleet_congr h) rfl
  | dropped place => exact congrArg (fun s : State => s.next d (.dropped place)) h
  | daemon pending otherwise =>
    exact congrArg (fun s : State => s.next d (.daemon pending otherwise)) h

theorem after_congr (h : s.veiled = t.veiled) (events : List Event) :
    (s.after d events).veiled = (t.after d events).veiled := by
  induction events generalizing s t with
  | nil => exact h
  | cons e events ih => exact ih (next_congr h e)

/-- Whatever has happened to two states that differ in stored passwords at most, a request that
is not a login is answered alike, the same frames are queued, and the states that it leaves
behind differ in stored passwords at most. -/
theorem passwords_unseen (h : s.veiled = t.veiled) (events : List Event) (m : Moment)
    (hlogin : ¬(r.verb = .post ∧ r.path = "/api/auth/login")) :
    let served := (s.after d events).serve (d.context m) r
    let served' := (t.after d events).serve (d.context m) r
    served.response = served'.response ∧ served.state.registry = served'.state.registry ∧
      served.notices = served'.notices ∧ served.state.veiled = served'.state.veiled := by
  intro served served'
  have hserved : served.veiled = served'.veiled := serve_congr (after_congr h events) hlogin
  have hresponse : served.veiled.response = served'.veiled.response :=
    congrArg Served.response hserved
  have hnotices : served.veiled.notices = served'.veiled.notices := congrArg Served.notices hserved
  have hstate : served.state.veiled = served'.state.veiled := congrArg Served.state hserved
  exact ⟨hresponse, registry_congr hstate, hnotices, hstate⟩

/-- The state in which an account and an instance are stored besides the first account. -/
def guarded (password : String) (secret : Option String) : State where
  fleet := {
    store := { firstStore with
      users := firstStore.users ++ [{ alice with password }]
      userGrants := firstStore.userGrants ++ [⟨alice.id, Store.userAuthority.id⟩]
      instances := [⟨Table.firstId, { radio with password := secret }⟩] }
    control := (first (.answered 200 "")).fleet.control }
  registry := .empty

/-- The first account creates both. -/
theorem reachable_guarded {password : String} {secret : Option String}
    (hpassword : Validation.password password = .ok ())
    (hsize : Utf8.size (Message.write (NewUser.mk "alice" password true)) ≤ longestBody)
    (hsecret : (Json.Shape.optional .text).Fits secret)
    (hsize' : Utf8.size (Message.write { radio with password := secret }) ≤ longestBody) :
    Reachable .plain (guarded password secret) := by
  have haccount : operation? (posting "/api/user" (NewUser.mk "alice" password true)) =
      some (.createUser ⟨"alice", password, true⟩) :=
    operation?_withBody rfl rfl ⟨by decide, trivial, trivial, trivial, trivial⟩ hsize
  have hport : Json.FitsWord radio.port.val := ⟨by decide, by decide⟩
  have hinstance : operation? (posting "/api/instance" { radio with password := secret }) =
      some (.createInstance { radio with password := secret }) :=
    operation?_withBody rfl rfl
      ⟨by decide, trivial, trivial, hport, trivial, trivial, hsecret, trivial, trivial⟩ hsize'
  let store : Store := { (guarded password secret).fleet.store with instances := [] }
  let before : State := ⟨{ (guarded password secret).fleet with store }, .empty⟩
  have hcreate : (Users.create (Setup.plain.context .epoch) ⟨"alice", password, true⟩).run
      (first (.answered 200 "")).fleet =
      (.ok (.created (Message.toJson { alice with password }) .users), before.fleet) := by
    simp only [Users.create, Action.run_bind, Action.run_check, hpassword]
    rfl
  have hvalid : ({ radio with password := secret } : Settings).validate = .ok () := by
    show radio.validate = .ok ()
    rfl
  have haccounted : Reachable .plain before := by
    have hnext : (first (.answered 200 "")).next .plain (.request .epoch
        (byRoot (Setup.plain.context .epoch)
          (posting "/api/user" (NewUser.mk "alice" password true)))) = before := by
      rw [next_byRoot rfl haccount, Operation.perform, perform_of_ok hcreate]
      rfl
    rw [← hnext]
    exact (reachable_first _).next _
  have hnext : before.next .plain (.request .epoch (byRoot (Setup.plain.context .epoch)
      (posting "/api/instance" { radio with password := secret }))) = guarded password secret := by
    have hid : Table.nextId? before.fleet.store.instances = some Table.firstId := rfl
    rw [next_byRoot rfl hinstance, Operation.perform,
      perform_of_ok (Instances.run_create hvalid hid)]
    rfl
  rw [← hnext]
  exact haccounted.next _

/-- A request to start the instance is answered alike whether the instance has a password or not,
and whatever the account has for one. -/
theorem start_unseen :
    let s := guarded "password1" none
    let t := guarded "password2" (some "secret")
    Reachable .plain s ∧ Reachable .plain t ∧ s ≠ t ∧ s.veiled = t.veiled ∧
      (s.serve (Setup.plain.context .epoch) startRadio).response =
        (t.serve (Setup.plain.context .epoch) startRadio).response ∧
      (s.serve (Setup.plain.context .epoch) startRadio).state.veiled =
        (t.serve (Setup.plain.context .epoch) startRadio).state.veiled := by
  intro s t
  have hs : Reachable .plain s := reachable_guarded rfl (by decide) trivial (by decide)
  have ht : Reachable .plain t := reachable_guarded rfl (by decide) ⟨trivial, nofun⟩ (by decide)
  have hne : s ≠ t := by
    intro h
    have hinstances : s.fleet.store.instances = t.fleet.store.instances := by rw [h]
    exact absurd hinstances (by decide)
  have hveiled : s.veiled = t.veiled := rfl
  obtain ⟨hresponse, -, -, hstate⟩ :=
    passwords_unseen (d := .plain) (r := startRadio) hveiled [] .epoch (fun h => by cases h.1)
  exact ⟨hs, ht, hne, hveiled, hresponse, hstate⟩

end State
end Requests
end Service
end BotFleet
