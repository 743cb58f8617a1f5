import BotFleet.Proofs.Service.Gate

/-
Identifiers that count as running without an instance.

An instance is deleted even if the daemon refuses to stop it, and then nothing takes
its identifier off the record of running instances.  `Strands` is the request that does
this.  It is the only way for such an identifier to come about, and from there on only
an instance that is given the identifier ends it: that instance counts as running
before it was ever started, and a command to start it sends nothing.
-/

namespace BotFleet
namespace Service

open Http (Request)
open Json (Message)

namespace Fleet

def HasInstance (f : Fleet) (id : Id) : Prop := Table.has id f.store.instances = true

/-- The identifier counts as running, and no instance has it. -/
def Orphan (f : Fleet) (id : Id) : Prop := f.isRunning id = true ∧ ¬f.HasInstance id

variable {f f' : Fleet}

theorem hasInstance_of_find {id : Id} {i : Instance} (h : f.store.instance? id = some i) :
    f.HasInstance i.id ∧ i.id = id := by
  have hkey : i.id = id := Table.key_of_find? h
  refine ⟨?_, hkey⟩
  rw [hkey]
  exact Table.has_of_find? h

theorem Alike.orphan (h : Alike f f') (id : Id) : f'.Orphan id ↔ f.Orphan id := by
  rw [Orphan, Orphan, HasInstance, HasInstance, h.isRunning, h.store]

/-- Deleting the instance leaves its identifier behind, since the daemon refuses to stop
it. -/
def Strands (f : Fleet) (id : Id) (op : Operation) : Prop :=
  op = .deleteInstance id ∧ f.HasInstance id ∧ ∃ fault, (f.control.stop id).1 = .error fault

/-- What an operation that does not delete the instance may do: it keeps the instance if
there is one, and alters the record for an instance only. -/
theorem orphan_congr {op : Operation} {id : Id} (hop : op ≠ .deleteInstance id)
    (hhas : f.HasInstance id → f'.HasInstance id)
    (hrunning : ¬f.HasInstance id → f'.isRunning id = f.isRunning id) :
    f'.Orphan id ↔ (f.Orphan id ∧ ¬f'.HasInstance id) ∨ f.Strands id op := by
  constructor
  · rintro ⟨hrun, hno⟩
    have hnone : ¬f.HasInstance id := fun h => hno (hhas h)
    rw [hrunning hnone] at hrun
    exact .inl ⟨⟨hrun, hnone⟩, hno⟩
  · rintro (⟨⟨hrun, hnone⟩, hno⟩ | ⟨heq, -⟩)
    · rw [← hrunning hnone] at hrun
      exact ⟨hrun, hno⟩
    · exact absurd heq hop

theorem hasInstance_insert {f : Fleet} {i : Instance} {store : Store} {id : Id}
    (hstore : store.instances = Table.insert i f.store.instances) (h : f.HasInstance id) :
    Fleet.HasInstance { f with store } id := by
  show Table.has id store.instances = true
  rw [hstore]
  exact Table.has_insert.mpr (.inr h)

theorem hasInstance_delete {control : Daemon.Control} {id other : Id} :
    Fleet.HasInstance ⟨(f.store.deleteInstance id).2, control⟩ other ↔
      other ≠ id ∧ f.HasInstance other :=
  Table.has_erase

end Fleet

variable {c : Context} {sender : Sender} {f f' : Fleet} {op : Operation} {a : Answer}

theorem Effect.orphan_delete {id other : Id} {i : Instance} {stopped : Bool}
    {control : Daemon.Control} (hi : f.store.instance? id = some i)
    (hstop : f.control.stop i.id = (.ok stopped, control)) :
    Fleet.Orphan ⟨(f.store.deleteInstance id).2, control⟩ other ↔
      (f.Orphan other ∧ ¬Fleet.HasInstance ⟨(f.store.deleteInstance id).2, control⟩ other) ∨
        f.Strands other (.deleteInstance id) := by
  obtain ⟨hhas, hid⟩ := Fleet.hasInstance_of_find hi
  have hrun : control.isRunning other = (f.control.isRunning other && other != i.id) :=
    Daemon.Control.isRunning_of_stop hstop
  by_cases hother : other = i.id
  · subst hother
    constructor
    · rintro ⟨hrunning, -⟩
      have hfalse : control.isRunning i.id = false := by
        rw [hrun, bne_self_eq_false, Bool.and_false]
      exact absurd hrunning (by rw [Fleet.isRunning, hfalse]; decide)
    · rintro (⟨⟨-, hno⟩, -⟩ | ⟨-, -, fault, hfault⟩)
      · exact absurd hhas hno
      · rw [hstop] at hfault
        cases hfault
  · refine Fleet.orphan_congr ?_ ?_ ?_
    · rintro ⟨⟩
      exact hother hid.symm
    · intro h
      exact Fleet.hasInstance_delete.mpr ⟨hid ▸ hother, h⟩
    · intro _
      show control.isRunning other = f.control.isRunning other
      rw [hrun, bne_iff_ne.mpr hother, Bool.and_true]

theorem Effect.orphan_drop {id other : Id} {i : Instance} {fault : Daemon.Fault}
    {control : Daemon.Control} (hi : f.store.instance? id = some i)
    (hstop : f.control.stop i.id = (.error fault, control)) :
    Fleet.Orphan ⟨(f.store.deleteInstance id).2, control⟩ other ↔
      (f.Orphan other ∧ ¬Fleet.HasInstance ⟨(f.store.deleteInstance id).2, control⟩ other) ∨
        f.Strands other (.deleteInstance id) := by
  obtain ⟨hhas, hid⟩ := Fleet.hasInstance_of_find hi
  have hrun : control.isRunning other = f.control.isRunning other := by
    rw [Daemon.Control.isRunning, Daemon.Control.isRunning,
      Daemon.Control.running_of_stop_error hstop]
  by_cases hother : other = i.id
  · subst hother
    have hrunning : f.control.isRunning i.id = true := (Daemon.Control.stop_eq_error hstop).1
    constructor
    · intro _
      exact .inr ⟨by rw [hid], hhas, fault, by rw [hstop]⟩
    · intro _
      refine ⟨?_, ?_⟩
      · rw [Fleet.isRunning, hrun, hrunning]
      · rw [Fleet.hasInstance_delete]
        exact fun h => h.1 hid
  · refine Fleet.orphan_congr ?_ ?_ ?_
    · rintro ⟨⟩
      exact hother hid.symm
    · intro h
      exact Fleet.hasInstance_delete.mpr ⟨hid ▸ hother, h⟩
    · intro _
      exact hrun

/-- An identifier is left behind when its instance is deleted and the daemon refuses to
stop it, and for as long as no instance has it. -/
theorem Effect.orphan_iff (h : Effect c sender f op a f') (id : Id) :
    f'.Orphan id ↔ (f.Orphan id ∧ ¬f'.HasInstance id) ∨ f.Strands id op := by
  have hsame {op : Operation} {store : Store} (hop : op ≠ .deleteInstance id)
      (hinstances : store.instances = f.store.instances) :
      Fleet.Orphan { f with store } id ↔
        (f.Orphan id ∧ ¬Fleet.HasInstance { f with store } id) ∨ f.Strands id op := by
    refine Fleet.orphan_congr hop ?_ fun _ => rfl
    intro hhas
    show Table.has id store.instances = true
    rw [hinstances]
    exact hhas
  cases h with
  | createUser _ _ _ _ hcall =>
    obtain ⟨_, -, -, -, -, -, rfl⟩ := Store.createUser_eq_ok hcall
    exact hsame (by simp) rfl
  | editUser _ _ hcall =>
    obtain ⟨u, -, -, -, rfl⟩ := Store.updateUser_eq_ok_some hcall
    exact hsame (by simp) rfl
  | grantUser hcall =>
    obtain ⟨-, -, rfl⟩ := Store.grantUser_eq_ok hcall
    exact hsame (by simp) rfl
  | createGroup _ hcall =>
    obtain ⟨_, -, -, -, -, rfl⟩ := Store.createGroup_eq_ok hcall
    exact hsame (by simp) rfl
  | renameGroup _ hcall =>
    obtain ⟨g, -, -, -, rfl⟩ := Store.renameGroup_eq_ok_some hcall
    exact hsame (by simp) rfl
  | addMember hcall | stayMember hcall =>
    obtain ⟨-, -, -, rfl⟩ := Store.addMember_eq_ok hcall
    exact hsame (by simp) rfl
  | grantGroup hcall =>
    obtain ⟨-, -, rfl⟩ := Store.grantGroup_eq_ok hcall
    exact hsame (by simp) rfl
  | createInstance _ hcall =>
    obtain ⟨_, -, -, -, rfl⟩ := Store.createInstance_eq_ok hcall
    exact Fleet.orphan_congr (by simp) (Fleet.hasInstance_insert rfl) fun _ => rfl
  | @editInstance _ settings _ _ _ hcall =>
    obtain ⟨i, -, -, rfl⟩ := Store.updateInstance_eq_some hcall
    refine Fleet.orphan_congr (by simp) (fun hhas => ?_) fun _ => rfl
    have hkey : ∀ r : Instance, Row.key (Store.resettle settings r) = Row.key r := fun _ => rfl
    exact (Table.has_update hkey _ id _).trans hhas
  | deleteInstance hi hstop => exact Effect.orphan_delete hi hstop
  | dropInstance hi hstop => exact Effect.orphan_drop hi hstop
  | startInstance hi hstart =>
    obtain ⟨hhas, -⟩ := Fleet.hasInstance_of_find hi
    refine Fleet.orphan_congr (by simp) (fun h => h) fun hnone => ?_
    have hne : id ≠ _ := fun he => hnone (he ▸ hhas)
    rw [Fleet.isRunning, Daemon.Control.isRunning_of_start hstart, beq_eq_false_iff_ne.mpr hne]
    rfl
  | stopInstance hi hstop =>
    obtain ⟨hhas, -⟩ := Fleet.hasInstance_of_find hi
    refine Fleet.orphan_congr (by simp) (fun h => h) fun hnone => ?_
    have hne : id ≠ _ := fun he => hnone (he ▸ hhas)
    rw [Fleet.isRunning, Daemon.Control.isRunning_of_stop hstop, bne_iff_ne.mpr hne,
      Bool.and_true]
    rfl
  | deleteUser | revokeUser | deleteGroup | removeMember | revokeGroup | showMe | listUsers
  | showUser | listGroups | showGroup | listInstances | showInstance | keepStarted | keepStopped
  | listAuthorities => exact hsame (by simp) rfl

theorem Instances.run_delete_of_error {id : Id} {i : Instance} {fault : Daemon.Fault}
    {control : Daemon.Control} (hi : f.store.instance? id = some i)
    (hstop : f.control.stop i.id = (.error fault, control)) :
    (Instances.delete id).run f =
      (.ok { Answer.done (some .instances) with notices := [Instances.notStopped id fault] },
        ⟨(f.store.deleteInstance id).2, control⟩) := by
  rw [Instances.delete, Action.run_bind, Instances.find, Action.run_find, hi]
  dsimp only
  rw [Action.run_bind, Action.run_command, hstop]
  rfl

namespace State

variable {d : Setup} {s : State} {id : Id}

/-- A request is let in that deletes the instance, and the daemon refuses to stop it. -/
def Strands (d : Setup) (id : Id) (s : State) (e : Event) : Prop :=
  ∃ m r sender op, e = .request m r ∧ s.asked (d.context m) r = some (sender, op) ∧
    s.fleet.Strands id op

theorem orphan_of_strands {e : Event} (h : s.Strands d id e) : (s.next d e).fleet.Orphan id := by
  obtain ⟨m, r, sender, op, rfl, hasked, hstrands⟩ := h
  obtain ⟨hop, hhas, fault, hfault⟩ := hstrands
  rw [hop] at hasked
  obtain ⟨i, hi⟩ := Option.isSome_iff_exists.mp hhas
  have hid : i.id = id := Table.key_of_find? hi
  have hstop : s.fleet.control.stop i.id = (.error fault, (s.fleet.control.stop id).2) := by
    rw [hid, ← hfault]
  have hnext : (s.next d (.request m r)).fleet =
      ⟨(s.fleet.store.deleteInstance id).2, (s.fleet.control.stop id).2⟩ := by
    rw [next_of_asked hasked]
    exact congrArg (fun served => served.state.fleet)
      (perform_of_ok (Instances.run_delete_of_error hi hstop))
  rw [hnext]
  exact (Effect.orphan_drop hi hstop).mpr (.inr ⟨rfl, hhas, fault, hfault⟩)

theorem orphan_next_iff (hs : s.fleet.store.Sound) (e : Event) :
    (s.next d e).fleet.Orphan id ↔
      (s.fleet.Orphan id ∧ ¬(s.next d e).fleet.HasInstance id) ∨ s.Strands d id e := by
  rcases next_fleet d hs e with ⟨m, r, sender, op, a, rfl, hasked, heffect, -⟩ | halike
  · rw [heffect.orphan_iff id]
    refine or_congr_right ⟨fun h => ⟨m, r, sender, op, rfl, hasked, h⟩, ?_⟩
    rintro ⟨m', r', sender', op', heq, hasked', h⟩
    cases heq
    rw [hasked] at hasked'
    cases hasked'
    exact h
  · constructor
    · intro h
      exact .inl ⟨(halike.orphan id).mp h, h.2⟩
    · rintro (⟨h, -⟩ | h)
      · exact (halike.orphan id).mpr h
      · exact orphan_of_strands h

/-! ## Runs -/

/-- The instance was deleted at some point, the daemon refused to stop it, and there
has been no instance with its identifier since. -/
def Stranded (d : Setup) (id : Id) (s : State) (events : List Event) : Prop :=
  ∃ before e rest, events = before ++ e :: rest ∧ (s.after d before).Strands d id e ∧
    ∀ mid, mid <+: rest → ¬(s.after d (before ++ e :: mid)).fleet.HasInstance id

theorem stranded_nil : ¬s.Stranded d id [] := by
  rintro ⟨before, e, rest, h, -⟩
  cases before <;> cases h

theorem stranded_cons {e : Event} {events : List Event} :
    s.Stranded d id (e :: events) ↔
      (s.Strands d id e ∧
        ∀ mid, mid <+: events → ¬((s.next d e).after d mid).fleet.HasInstance id) ∨
      (s.next d e).Stranded d id events := by
  constructor
  · rintro ⟨_ | ⟨b, before⟩, x, rest, heq, hstrands, hnone⟩
    · cases heq
      exact .inl ⟨hstrands, hnone⟩
    · cases heq
      exact .inr ⟨before, x, rest, rfl, hstrands, hnone⟩
  · rintro (⟨hstrands, hnone⟩ | ⟨before, x, rest, rfl, hstrands, hnone⟩)
    · exact ⟨[], e, events, rfl, hstrands, hnone⟩
    · exact ⟨e :: before, x, rest, rfl, hstrands, hnone⟩

/-- After any run an identifier counts as running without an instance if it did so from
the beginning, or if its instance was deleted in the meantime. -/
theorem orphan_after_iff (hs : s.fleet.store.Sound) (events : List Event) :
    (s.after d events).fleet.Orphan id ↔
      (s.fleet.Orphan id ∧ ∀ mid, mid <+: events → ¬(s.after d mid).fleet.HasInstance id) ∨
        s.Stranded d id events := by
  induction events generalizing s with
  | nil =>
    constructor
    · intro h
      refine .inl ⟨h, fun mid hmid => ?_⟩
      rw [List.prefix_nil.mp hmid]
      exact h.2
    · rintro (⟨h, -⟩ | h)
      · exact h
      · exact absurd h stranded_nil
  | cons e events ih =>
    have hnext : s.after d (e :: events) = (s.next d e).after d events := rfl
    have hfirst : ∀ mid, s.after d (e :: mid) = (s.next d e).after d mid := fun _ => rfl
    rw [hnext, ih (next_sound hs e), orphan_next_iff hs e, stranded_cons, forall_prefix_cons]
    simp only [hfirst]
    constructor
    · rintro (⟨⟨h, hno⟩ | h, hnone⟩ | h)
      · exact .inl ⟨h, h.2, hnone⟩
      · exact .inr (.inl ⟨h, hnone⟩)
      · exact .inr (.inr h)
    · rintro (⟨h, -, hnone⟩ | ⟨h, hnone⟩ | h)
      · exact .inl ⟨.inl ⟨h, hnone [] List.nil_prefix⟩, hnone⟩
      · exact .inl ⟨.inr h, hnone⟩
      · exact .inr h

/-- Right after a start only instances that exist count as running. -/
theorem not_orphan_of_started (h : Started d s) : ¬s.fleet.Orphan id := by
  obtain ⟨store, hstart, -⟩ := h.exists_store
  obtain ⟨m, draws, password, after, link, -, rfl⟩ := hstart.eq
  rintro ⟨hrun, hno⟩
  rcases Daemon.Control.mem_running_autostart (Daemon.Control.isRunning_iff.mp hrun) with
    hmem | ⟨i, hi, rfl⟩
  · cases hmem
  · exact hno (Table.has_iff.mpr ⟨i, (List.mem_filter.mp hi).1, rfl⟩)

/-- Since a start, only instances that were deleted and that the daemon refused to stop
have left their identifiers behind. -/
theorem orphan_iff_stranded (h : Started d s) (events : List Event) :
    (s.after d events).fleet.Orphan id ↔ s.Stranded d id events := by
  rw [orphan_after_iff h.sound]
  exact or_iff_right fun h' => not_orphan_of_started h h'.1

end State

/-! ## New instances -/

/-- What a command to start an instance sends. -/
theorem Instances.run_start_link {id : Id} {i : Instance} (hi : f.store.instance? id = some i) :
    ((Instances.start id).run f).2.control.link =
      if f.isRunning i.id then f.control.link
      else f.control.link.record "/instance/start"
        (Message.toJson (Daemon.LoadRequest.ofInstance i Daemon.initialVolume)) := by
  have hlink : ((Instances.start id).run f).2.control.link = (f.control.start i).2.link := by
    rw [Instances.start, Instances.steer, Action.run_bind, Instances.find, Action.run_find, hi]
    dsimp only
    rw [Action.run_bind, Action.run_command]
    rcases f.control.start i with ⟨fault | _ | _, control⟩ <;> rfl
  rw [hlink, Daemon.Control.start_link]
  rfl

theorem Instances.run_create {settings : Settings} {id : Id} (hvalid : settings.validate = .ok ())
    (hid : Table.nextId? f.store.instances = some id) :
    (Instances.create settings).run f =
      (.ok (.created (f.view ⟨id, settings⟩).toJson .instances),
        { f with store := { f.store with
            instances := Table.insert ⟨id, settings⟩ f.store.instances } }) := by
  rw [Instances.create, Action.run_bind, Action.run_check, hvalid]
  show (Action.call (Store.createInstance settings) >>= _).run f = _
  rw [Action.run_bind, Action.run_call, Store.createInstance, hid]
  rfl

theorem Instances.run_create_full {settings : Settings} (hvalid : settings.validate = .ok ())
    (hid : Table.nextId? f.store.instances = none) :
    (Instances.create settings).run f = (.error (.store Store.full), f) := by
  rw [Instances.create, Action.run_bind, Action.run_check, hvalid]
  show (Action.call (Store.createInstance settings) >>= _).run f = _
  rw [Action.run_bind, Action.run_call, Store.createInstance, hid]

namespace State

variable {d : Setup} {s : State} {m : Moment} {r : Request} {settings : Settings}

/-- A new instance counts as running at once if and only if its identifier was left
behind. -/
theorem created_running_iff {id : Id} (hs : Started d s) {events : List Event}
    (hid : Table.nextId? (s.after d events).fleet.store.instances = some id) :
    (s.after d events).fleet.isRunning id = true ↔ s.Stranded d id events := by
  rw [← orphan_iff_stranded hs events]
  have hno : ¬(s.after d events).fleet.HasInstance id := by
    rw [Fleet.HasInstance, Table.not_has_of_nextId? hid]
    decide
  exact (and_iff_left hno).symm

/-! ## An instance that cannot be stopped -/

def radio : Settings := ⟨"radio", "localhost", ⟨9987, by decide⟩, none, none, none, false⟩

/-- The request of the first account for a new instance. -/
def createRadio : Request :=
  byRoot (Setup.plain.context .epoch) (posting "/api/instance" radio)

def startRadio : Request :=
  byRoot (Setup.plain.context .epoch) (bare .put "/api/instance/1/start")

def deleteRadio : Request := byRoot (Setup.plain.context .epoch) (bare .delete "/api/instance/1")

/-- The instance is created and started, and from then on the daemon refuses.  Then the
instance is deleted. -/
def mishap : List Event :=
  [.request .epoch createRadio, .request .epoch startRadio, .daemon [] (.answered 500 ""),
    .request .epoch deleteRadio]

theorem asked_createRadio {s : State} {password : String} {created : Instant}
    (hroot : s.fleet.store.user? .zero = some ⟨.zero, "root", true, password, created⟩) :
    s.asked (Setup.plain.context .epoch) createRadio = some (root, .createInstance radio) := by
  have hport : Json.FitsWord radio.port.val := ⟨by decide, by decide⟩
  have hop : operation? (posting "/api/instance" radio) = some (.createInstance radio) :=
    operation?_withBody rfl rfl
      ⟨by decide, trivial, trivial, hport, trivial, trivial, trivial, trivial, trivial⟩ (by decide)
  exact asked_eq_some_iff.mpr
    ⟨identify_byRoot hroot _, (operation?_bearing _ _).trans hop⟩

theorem asked_startRadio {s : State} {password : String} {created : Instant}
    (hroot : s.fleet.store.user? .zero = some ⟨.zero, "root", true, password, created⟩) :
    s.asked (Setup.plain.context .epoch) startRadio = some (root, .startInstance Table.firstId) := by
  have hroute : Route.ofPath? "/api/instance/1/start" =
      some (.resource (.instanceStart "1")) := rfl
  have hop : operation? (bare .put "/api/instance/1/start") =
      some (.startInstance Table.firstId) :=
    operation?_withId (by decide) hroute rfl
  exact asked_eq_some_iff.mpr
    ⟨identify_byRoot hroot _, (operation?_bearing _ _).trans hop⟩

/-- The first account and the instance are all that is stored. -/
def withRadio (control : Daemon.Control) : State :=
  ⟨⟨{ firstStore with instances := [⟨Table.firstId, radio⟩] }, control⟩, .empty⟩

theorem next_createRadio (otherwise : Daemon.Outcome) :
    (first otherwise).next .plain (.request .epoch createRadio) =
      withRadio (first otherwise).fleet.control :=
  (next_of_asked (asked_createRadio rfl)).trans rfl

/-- Nothing is stored any more of the instance, but it still counts as running. -/
theorem after_mishap : ∃ link, (first (.answered 200 "")).after .plain mishap =
    ⟨⟨firstStore, ⟨[Table.firstId], link⟩⟩, .empty⟩ := by
  let started := ((first (.answered 200 "")).fleet.control.start ⟨Table.firstId, radio⟩).2
  let link : Daemon.Link := { started.link with pending := [], otherwise := .answered 500 "" }
  have hstart : (withRadio (first (.answered 200 "")).fleet.control).next .plain
      (.request .epoch startRadio) = withRadio started :=
    (next_of_asked (asked_startRadio rfl)).trans rfl
  have hrefuse : (withRadio started).next .plain (.daemon [] (.answered 500 "")) =
      withRadio ⟨started.running, link⟩ := rfl
  have hdelete : (withRadio ⟨started.running, link⟩).next .plain
      (.request .epoch deleteRadio) =
      ⟨⟨firstStore, (Daemon.Control.stop Table.firstId ⟨started.running, link⟩).2⟩, .empty⟩ := by
    have hroute : Route.ofPath? "/api/instance/1" = some (.resource (.inst "1")) := rfl
    have hop : operation? (bare .delete "/api/instance/1") =
        some (.deleteInstance Table.firstId) :=
      operation?_withId (by decide) hroute rfl
    exact (next_byRoot rfl hop).trans rfl
  refine ⟨(Daemon.Control.stop Table.firstId ⟨started.running, link⟩).2.link, ?_⟩
  rw [after, mishap, List.foldl_cons, next_createRadio, List.foldl_cons, hstart, List.foldl_cons,
    hrefuse, List.foldl_cons, hdelete]
  rfl

/-- The answer to a request for a new instance, and what a command to start that
instance sends right afterwards.  The instance is not running and one request is sent,
unless an instance with its identifier was deleted that the daemon refused to stop. -/
theorem created_stopped_unless_stranded {sender : Sender} {events : List Event} (hs : Started d s)
    (hverb : r.verb = .post)
    (hasked : (s.after d events).asked (d.context m) r = some (sender, .createInstance settings))
    (hvalid : settings.validate = .ok ()) :
    let served := (s.after d events).serve (d.context m) r
    (Table.nextId? (s.after d events).fleet.store.instances = none →
      served.response.status = 500) ∧
    ∀ id, Table.nextId? (s.after d events).fleet.store.instances = some id →
      ∃ running, (running = true ↔ s.Stranded d id events) ∧
        served.response.status = 201 ∧
        served.response.content = .json (InstanceView.toJson ⟨⟨id, settings⟩, running⟩) ∧
        ∀ m' r' sender', served.state.asked (d.context m') r' = some (sender', .startInstance id) →
          (served.state.next d (.request m' r')).fleet.control.link =
            if running then served.state.fleet.control.link
            else served.state.fleet.control.link.record "/instance/start"
              (Message.toJson
                (Daemon.LoadRequest.ofInstance ⟨id, settings⟩ Daemon.initialVolume)) := by
  intro served
  have hserved : served = finish (d.context m) r ((s.after d events).perform
      ((Operation.createInstance settings).perform (d.context m) sender)) := serve_of_asked hasked
  rw [show (Operation.createInstance settings).perform (d.context m) sender =
    Instances.create settings from rfl] at hserved
  have hhead : r.verb ≠ .head := by
    rw [hverb]
    decide
  constructor
  · intro hid
    rw [hserved, perform_of_error (Instances.run_create_full hvalid hid), finish, if_neg hhead]
    rfl
  · intro id hid
    rw [perform_of_ok (Instances.run_create hvalid hid), finish, if_neg hhead] at hserved
    refine ⟨_, created_running_iff hs hid, ?_, ?_, ?_⟩
    · rw [hserved]
      rfl
    · rw [hserved]
      rfl
    · intro m' r' sender' hstart
      have hfind : served.state.fleet.store.instance? id = some ⟨id, settings⟩ := by
        rw [hserved]
        have hfresh : Table.has (Row.key (⟨id, settings⟩ : Instance))
            (s.after d events).fleet.store.instances = false :=
          Table.not_has_of_nextId? hid
        exact (Table.find?_insert _ _ id hfresh).trans (if_pos rfl)
      rw [next_of_asked hstart, perform_fleet]
      exact (Instances.run_start_link hfind).trans (by rw [hserved]; rfl)

/-- The first instance is not running when it is created, and the one after the mishap
is. -/
theorem radio_created_stopped_unless_stranded :
    ((first (.answered 200 "")).serve (Setup.plain.context .epoch) createRadio).response.content =
        .json (InstanceView.toJson ⟨⟨Table.firstId, radio⟩, false⟩) ∧
      (((first (.answered 200 "")).after .plain mishap).serve (Setup.plain.context .epoch)
          createRadio).response.content =
        .json (InstanceView.toJson ⟨⟨Table.firstId, radio⟩, true⟩) := by
  obtain ⟨link, hafter⟩ := after_mishap
  have hstart := started_first (.answered 200 "")
  have hvalid : radio.validate = .ok () := by rfl
  have hasked : ((first (.answered 200 "")).after .plain mishap).asked
      (Setup.plain.context .epoch) createRadio = some (root, .createInstance radio) := by
    rw [hafter]
    exact asked_createRadio rfl
  have hnext : Table.nextId? ((first (.answered 200 "")).after .plain mishap).fleet.store.instances =
      some Table.firstId := by
    rw [hafter]
    rfl
  have horphan : ((first (.answered 200 "")).after .plain mishap).fleet.Orphan Table.firstId := by
    rw [hafter]
    exact ⟨rfl, fun h => by cases h⟩
  obtain ⟨running, hiff, -, hcontent, -⟩ :=
    (created_stopped_unless_stranded (s := first (.answered 200 "")) hstart rfl
      (asked_createRadio rfl : State.asked _ _ (State.after _ _ []) = _) hvalid).2 Table.firstId rfl
  obtain ⟨running', hiff', -, hcontent', -⟩ :=
    (created_stopped_unless_stranded hstart rfl hasked hvalid).2 _ hnext
  have hfalse : running = false := Bool.eq_false_iff.mpr fun h => stranded_nil (hiff.mp h)
  have htrue : running' = true := hiff'.mpr ((orphan_iff_stranded hstart mishap).mp horphan)
  rw [hfalse] at hcontent
  rw [htrue] at hcontent'
  exact ⟨hcontent, hcontent'⟩

/-- Not every instance is created stopped. -/
theorem not_always_created_stopped :
    ¬∀ (d : Setup) (s : State) (m : Moment) (r : Request) (sender : Sender) (settings : Settings)
      (v : InstanceView), Reachable d s → r.verb = .post →
      s.asked (d.context m) r = some (sender, .createInstance settings) →
      settings.validate = .ok () →
      (s.serve (d.context m) r).response.content = .json v.toJson → v.running = false := by
  intro h
  obtain ⟨link, hafter⟩ := after_mishap
  let s : State := ⟨⟨firstStore, ⟨[Table.firstId], link⟩⟩, .empty⟩
  have hreach : Reachable .plain s := by
    rw [show s = (first (.answered 200 "")).after .plain mishap from hafter.symm]
    exact (reachable_first _).after mishap
  have hasked : s.asked (Setup.plain.context .epoch) createRadio =
      some (root, .createInstance radio) :=
    asked_createRadio rfl
  have hcontent : (s.serve (Setup.plain.context .epoch) createRadio).response.content =
      .json (InstanceView.toJson ⟨⟨Table.firstId, radio⟩, true⟩) := by
    rw [serve_of_asked hasked]
    rfl
  have hfalse := h .plain s .epoch createRadio root radio _ hreach rfl hasked (by rfl) hcontent
  cases hfalse

end State
end Service
end BotFleet
