import BotFleet.Proofs.Daemon.Ledger
import BotFleet.Proofs.Service.Orphan

/-
Who steers the daemon.

Commands come from four places: a start of the service, which goes through the
instances that start together with it, and the operations that start, stop and delete
an instance.  Nothing else touches the record of running instances or the link to the
daemon, so the record of a running service is that of a sequence of commands, which
can be read off its events.
-/

namespace BotFleet
namespace Service

open Daemon (Command Control Step)

/-! ## Operations -/

/-- The action does nothing to the running instances and sends nothing. -/
def Action.Steady {α : Type} (a : Action α) : Prop := ∀ f, (a.run f).2.control = f.control

namespace Action.Steady

variable {α β : Type}

theorem pure (a : α) : (pure a : Action α).Steady := fun _ => rfl

theorem bind {a : Action α} {next : α → Action β} (ha : a.Steady) (hnext : ∀ x, (next x).Steady) :
    (a >>= next).Steady := by
  intro f
  rw [run_bind]
  have hcontrol := ha f
  rcases hrun : a.run f with ⟨failure | x, g⟩
  · rw [hrun] at hcontrol
    exact hcontrol
  · rw [hrun] at hcontrol
    exact (hnext x g).trans hcontrol

theorem fail (failure : Failure) : (Action.fail failure : Action α).Steady := fun _ => rfl

theorem read (view : Fleet → α) : (Action.read view).Steady := fun _ => rfl

theorem check (result : Except Violation Unit) : (Action.check result).Steady := fun _ => rfl

theorem hash (c : Context) (password : String) : (Action.hash c password).Steady := fun _ => rfl

theorem write (g : Store → α × Store) : (Action.write g).Steady := fun _ => rfl

theorem find (view : Fleet → Option α) (missing : Failure) :
    (Action.find view missing).Steady := by
  intro f
  rw [run_find]
  cases view f <;> rfl

theorem call (g : Store → Store.Call α) : (Action.call g).Steady := by
  intro f
  rw [run_call]
  rcases g f.store with fault | ⟨x, store⟩ <;> rfl

end Action.Steady

/-- The commands that an operation gives. -/
def Operation.commands (f : Fleet) : Operation → List Command
  | startInstance id => (f.store.instance? id).toList.map .start
  | stopInstance id => (f.store.instance? id).toList.map fun i => .stop i.id
  | deleteInstance id => (f.store.instance? id).toList.map fun i => .stop i.id
  | _ => []

variable {c : Context} {sender : Sender} {f : Fleet}

theorem Instances.run_steer_control {id : Id}
    {command : Instance → Control → Except Daemon.Fault Bool × Control} :
    ((Instances.steer id command).run f).2.control =
      match f.store.instance? id with
      | some i => (command i f.control).2
      | none => f.control := by
  rw [Instances.steer, Action.run_bind, Instances.find, Action.run_find]
  cases f.store.instance? id with
  | none => rfl
  | some i =>
    dsimp only
    rw [Action.run_bind, Action.run_command]
    rcases command i f.control with ⟨fault | _ | _, control⟩ <;> rfl

theorem Instances.run_delete_control {id : Id} :
    ((Instances.delete id).run f).2.control =
      match f.store.instance? id with
      | some i => (f.control.stop i.id).2
      | none => f.control := by
  rw [Instances.delete, Action.run_bind, Instances.find, Action.run_find]
  cases f.store.instance? id with
  | none => rfl
  | some i =>
    dsimp only
    rw [Action.run_bind, Action.run_command]
    rcases f.control.stop i.id with ⟨fault | stopped, control⟩ <;> rfl

/-- What an operation with something to take away comes to in either case. -/
theorem Action.Steady.guard {g : Store → Bool × Store} {done missing : Action Answer}
    (hdone : done.Steady) (hmissing : missing.Steady) :
    (do if ← Action.write g then done else missing : Action Answer).Steady :=
  .bind (.write g) fun found => by
    cases found
    · exact hmissing
    · exact hdone

namespace Users

theorem steady_create (request : NewUser) : (create c request).Steady := by
  refine .bind (.check _) fun _ => .bind (.check _) fun _ => .bind (.read _) fun taken => ?_
  cases taken.isSome
  · exact .bind (.hash _ _) fun _ => .bind (.call _) fun _ => .pure _
  · exact .bind (.fail _) fun _ => .bind (.hash _ _) fun _ => .bind (.call _) fun _ => .pure _

theorem steady_edit (id : Id) (request : UserEdit) : (edit c id request).Steady := by
  have hname : (request.username.forM fun name =>
      Action.check (Validation.username name)).Steady := by
    cases request.username with
    | none => exact .pure _
    | some name => exact .check _
  have hpassword : (request.password.mapM (newPassword c)).Steady := by
    cases request.password with
    | none => exact .pure _
    | some password =>
      have hmap : (some password).mapM (newPassword c) =
          newPassword c password >>= fun hash => Pure.pure (some hash) := Option.mapM_some _ _
      rw [hmap]
      exact .bind (.bind (.check _) fun _ => .hash _ _) fun _ => .pure _
  refine .bind hname fun _ => .bind hpassword fun _ => .bind (.call _) fun changed => ?_
  cases changed with
  | none => exact .fail _
  | some u => exact .pure _

end Users

theorem Groups.steady_rename (id : Id) (request : GroupRequest) :
    (Groups.rename id request).Steady := by
  refine .bind (.check _) fun _ => .bind (.call _) fun renamed => ?_
  cases renamed with
  | none => exact .fail _
  | some g => exact .bind (.read _) fun _ => .pure _

theorem Groups.steady_addMember (group user : Id) : (Groups.addMember group user).Steady := by
  refine .bind (.find _ _) fun _ => .bind (.find _ _) fun _ => .bind (.call _) fun added => ?_
  cases added <;> exact .pure _

theorem Instances.steady_edit (id : Id) (settings : Settings) :
    (Instances.edit id settings).Steady := by
  refine .bind (.check _) fun _ => .bind (.write _) fun edited => ?_
  cases edited with
  | none => exact .fail _
  | some i => exact .bind (.read _) fun _ => .pure _

namespace Operation

/-- Commands for the instance with an identifier, if there is one. -/
theorem after_commands {id : Id} (command : Instance → Command) :
    f.control.after (((f.store.instance? id).toList.map command).map .command) =
      match f.store.instance? id with
      | some i => ((command i).run f.control).2
      | none => f.control := by
  cases f.store.instance? id <;> rfl

/-- Whatever becomes of an operation, it does to the running instances what its commands
do. -/
theorem perform_control (op : Operation) :
    ((op.perform c sender).run f).2.control =
      f.control.after ((op.commands f).map .command) := by
  cases op with
  | showMe => exact Action.Steady.bind (.find _ _) (fun _ => .bind (.read _) fun _ => .pure _) f
  | listUsers => exact Action.Steady.bind (.read _) (fun _ => .pure _) f
  | showUser id => exact Action.Steady.bind (.find _ _) (fun _ => .pure _) f
  | createUser request => exact Users.steady_create request f
  | editUser id request => exact Users.steady_edit id request f
  | deleteUser id => exact Action.Steady.guard (.pure _) (.fail _) f
  | grantUser id authority =>
    exact Action.Steady.bind (.find _ _) (fun _ => .bind (.call _) fun _ => .pure _) f
  | revokeUser id authority => exact Action.Steady.guard (.pure _) (.fail _) f
  | listGroups => exact Action.Steady.bind (.read _) (fun _ => .pure _) f
  | showGroup id =>
    exact Action.Steady.bind (.find _ _) (fun _ => .bind (.read _) fun _ => .pure _) f
  | createGroup request =>
    exact Action.Steady.bind (.check _)
      (fun _ => .bind (.call _) fun _ => .bind (.read _) fun _ => .pure _) f
  | renameGroup id request => exact Groups.steady_rename id request f
  | deleteGroup id => exact Action.Steady.guard (.pure _) (.fail _) f
  | addMember group user => exact Groups.steady_addMember group user f
  | removeMember group user =>
    exact Action.Steady.bind (.find _ _) (fun _ => .guard (.pure _) (.fail _)) f
  | grantGroup id authority =>
    exact Action.Steady.bind (.find _ _) (fun _ => .bind (.call _) fun _ => .pure _) f
  | revokeGroup id authority => exact Action.Steady.guard (.pure _) (.fail _) f
  | listInstances => exact Action.Steady.bind (.read _) (fun _ => .pure _) f
  | showInstance id =>
    exact Action.Steady.bind (.find _ _) (fun _ => .bind (.read _) fun _ => .pure _) f
  | createInstance settings =>
    exact Action.Steady.bind (.check _)
      (fun _ => .bind (.call _) fun _ => .bind (.read _) fun _ => .pure _) f
  | editInstance id settings => exact Instances.steady_edit id settings f
  | deleteInstance id =>
    rw [commands, after_commands]
    exact Instances.run_delete_control
  | startInstance id =>
    rw [commands, after_commands]
    exact Instances.run_steer_control
  | stopInstance id =>
    rw [commands, after_commands]
    exact Instances.run_steer_control
  | listAuthorities => exact Action.Steady.bind (.read _) (fun _ => .pure _) f

end Operation

namespace State

variable {d : Setup} {s : State}

/-! ## Events -/

/-- What an event does to the running instances and the link. -/
def steps (d : Setup) (s : State) : Event → List Step
  | .request m r =>
    match s.asked (d.context m) r with
    | some (_, op) => (op.commands s.fleet).map .command
    | none => []
  | .daemon pending otherwise => [.replies pending otherwise]
  | _ => []

/-- What the events of a run do to them, one after another. -/
def course (d : Setup) : State → List Event → List Step
  | _, [] => []
  | s, e :: events => s.steps d e ++ (s.next d e).course d events

theorem next_control (e : Event) :
    (s.next d e).fleet.control = s.fleet.control.after (s.steps d e) := by
  cases e with
  | request m r =>
    rw [next, serve_state, steps]
    cases s.asked (d.context m) r with
    | none =>
      dsimp only
      split
      · rw [openSocket_fleet]
        rfl
      · rfl
    | some admitted =>
      dsimp only
      rw [perform_fleet, Operation.perform_control]
  | received session item =>
    rw [next, receive_fleet]
    rfl
  | dropped place => rfl
  | daemon pending otherwise => rfl

theorem after_control (events : List Event) :
    (s.after d events).fleet.control = s.fleet.control.after (s.course d events) := by
  induction events generalizing s with
  | nil => rfl
  | cons e events ih =>
    rw [course, Control.after_append, ← next_control e]
    exact ih

/-! ## Starts of the service -/

/-- What a start of the service does. -/
def opening (s : State) : List Step :=
  s.fleet.store.autostartInstances.map fun i => .command (.start i)

theorem autostart_control (instances : List Instance) (control : Control) :
    (Control.autostart instances control).control =
      control.after (instances.map fun i => .command (.start i)) := by
  induction instances generalizing control with
  | nil => rfl
  | cons i rest ih =>
    have hnext : control.next (.command (.start i)) = (control.start i).2 := rfl
    rw [Control.autostart, List.map_cons, Control.after, List.foldl_cons, hnext]
    rcases control.start i with ⟨fault | _ | _, control'⟩ <;> exact ih control'

theorem control_of_run {m : Moment} {draws : List Nat}
    {found : Store.Location → Except Store.Fault Store} {link : Daemon.Link}
    (hstart : (Startup.run (d.context m) draws found link).state = .ok s) :
    s.fleet.control =
      Control.after ⟨[], { link with base := d.config.daemonBase }⟩ s.opening := by
  rw [Startup.run] at hstart
  dsimp only at hstart
  split at hstart
  · cases hstart
  · obtain ⟨-, -, rfl⟩ := Json.map_eq_ok hstart
    exact autostart_control _ _

/-- From the start of the service on, an instance counts as running exactly when the last
request for it that the daemon acknowledged was one to start it.  Only starts of the
service and the operations that start, stop and delete an instance command the daemon,
and whatever they command in whatever order, the record agrees with the ledger. -/
theorem running_agrees_with_ledger {m : Moment} {draws : List Nat}
    {found : Store.Location → Except Store.Fault Store} {link : Daemon.Link}
    (hstart : (Startup.run (d.context m) draws found link).state = .ok s)
    (events : List Event) :
    let atFirst : Control := ⟨[], { link with base := d.config.daemonBase }⟩
    (s.after d events).fleet.control = atFirst.after (s.opening ++ s.course d events) ∧
      ∀ steps, atFirst.Agrees steps := by
  intro atFirst
  refine ⟨?_, fun steps => Control.agrees_of_nothing_running _ steps⟩
  rw [Control.after_append, ← control_of_run hstart]
  exact after_control events

/-- The instance that was deleted although the daemon refused to stop it stays on the
record, and the daemon was last told to start it. -/
theorem mishap_agrees_with_ledger :
    let atFirst : Control := ⟨[], ⟨Setup.plain.config.daemonBase, [], .answered 200 "", []⟩⟩
    let steps := (first (.answered 200 "")).opening ++
      (first (.answered 200 "")).course .plain mishap
    ((first (.answered 200 "")).after .plain mishap).fleet.control = atFirst.after steps ∧
      (atFirst.after steps).isRunning Table.firstId = true ∧
      (Daemon.told Table.firstId (atFirst.ledger steps)).getLast? = some .start := by
  intro atFirst steps
  obtain ⟨hcontrol, hagrees⟩ := running_agrees_with_ledger (run_first (.answered 200 "")) mishap
  obtain ⟨link, hafter⟩ := after_mishap
  have hrunning : (atFirst.after steps).isRunning Table.firstId = true := by
    rw [← show _ = atFirst.after steps from hcontrol, hafter]
    rfl
  exact ⟨hcontrol, hrunning, ((hagrees steps).running_iff _).mp hrunning⟩

end State
end Service
end BotFleet
