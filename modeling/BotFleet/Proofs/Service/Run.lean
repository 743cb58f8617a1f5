import BotFleet.Proofs.Http.Percent
import BotFleet.Proofs.Service.Failing
import BotFleet.Service.Startup
import BotFleet.Socket

/-
Runs of the service.

Between a start and its end the service meets requests, items on the sockets of its
sessions, connections that go away, and a daemon whose answers come as they please.
`State.next` is what one such event makes of the state and `State.after` what
several do.  A state is reachable if a start on an empty store, and then events and
further starts on what is stored, lead to it.

Of all requests only those that are admitted as an operation, and those that open
a socket, do anything to the state: `serve_state` says so once, and what holds of
reachable states is shown from there.
-/

namespace BotFleet
namespace Service

open Http (Request)

/-- What stays the same for as long as the service runs. -/
structure Setup where
  config : Config
  scheme : Password.Scheme

/-- What a request finds by chance. -/
structure Moment where
  now : Instant
  salt : List UInt8
  session : SessionId

def Setup.context (d : Setup) (m : Moment) : Context :=
  ⟨d.config, d.scheme, m.now, m.salt, m.session⟩

/-- The setup without any settings, with passwords stored as they are. -/
def Setup.plain : Setup :=
  ⟨.default, ⟨fun _ _ password => .ok password, fun password stored => .ok (password == stored)⟩⟩

def Moment.epoch : Moment := ⟨⟨0, 0⟩, [], "a"⟩

def Moment.later : Moment := ⟨⟨1, 0⟩, [], "b"⟩

inductive Event where
  | request (m : Moment) (r : Request)
  /-- Something comes in on the socket of a session. -/
  | received (session : SessionId) (item : Socket.Item)
  /-- Nobody takes any more what is queued at a place. -/
  | dropped (place : Nat)
  /-- What becomes of requests to the daemon from now on. -/
  | daemon (pending : List Daemon.Outcome) (otherwise : Daemon.Outcome)

theorem Login.run_perform (c : Context) (login : BotFleet.Login) (f : Fleet) :
    (perform c login).run f =
      (((open? c f.store login).map (welcome c f.store)).map fun w =>
        .shown (Json.Message.toJson w), f) := by
  rw [perform, Action.run_bind, Action.run_read]
  cases open? c f.store login <;> rfl

namespace State

/-- What comes in for a session that is not registered comes in for nobody. -/
def receive (id : SessionId) (item : Socket.Item) (s : State) : State :=
  match s.registry.find? id with
  | some session => { s with registry := (Socket.step id session.outbox item s.registry).1 }
  | none => s

def next (d : Setup) (s : State) : Event → State
  | .request m r => (s.serve (d.context m) r).state
  | .received session item => s.receive session item
  | .dropped place => { s with registry := s.registry.dropOutbox place }
  | .daemon pending otherwise =>
    let link := { s.fleet.control.link with pending, otherwise }
    { s with fleet := { s.fleet with control := { s.fleet.control with link } } }

def after (d : Setup) (s : State) (events : List Event) : State := events.foldl (next d) s

/-- A start on what is stored, which yields the state to begin with. -/
def StartsFrom (d : Setup) (store : Store) (s : State) : Prop :=
  ∃ m draws link, (Startup.run (d.context m) draws (fun _ => .ok store) link).state = .ok s

inductive Reachable (d : Setup) : State → Prop
  | started {s : State} (h : s.StartsFrom d .fresh) : Reachable d s
  | restarted {s s' : State} (hs : Reachable d s) (h : s'.StartsFrom d s.fleet.store) :
    Reachable d s'
  | next {s : State} (hs : Reachable d s) (e : Event) : Reachable d (s.next d e)

theorem Reachable.after {d : Setup} {s : State} (hs : Reachable d s) (events : List Event) :
    Reachable d (s.after d events) := by
  induction events generalizing s with
  | nil => exact hs
  | cons e events ih => exact ih (hs.next e)

/-- What holds after every part of a run from its beginning. -/
theorem forall_prefix_cons {p : List Event → Prop} {e : Event} {events : List Event} :
    (∀ mid, mid <+: e :: events → p mid) ↔ p [] ∧ ∀ mid, mid <+: events → p (e :: mid) := by
  constructor
  · intro h
    exact ⟨h [] List.nil_prefix, fun mid hmid => h _ (List.cons_prefix_cons.mpr ⟨rfl, hmid⟩)⟩
  · rintro ⟨hnil, hcons⟩ mid hmid
    cases mid with
    | nil => exact hnil
    | cons x mid =>
      obtain ⟨rfl, hrest⟩ := List.cons_prefix_cons.mp hmid
      exact hcons mid hrest

/-! ## What requests are admitted as -/

/-- The operation that a request is read into, if it is for a resource and nothing in it
stands in the way. -/
def operation? (r : Request) : Option Operation :=
  if r.verb = .options then none
  else
    match Route.ofPath? r.path with
    | some (.resource resource) => (resource.reader? r.verb).bind fun reader => (reader r).toOption
    | _ => none

/-- The sender of a request and the operation that it asks for. -/
def asked (c : Context) (r : Request) (s : State) : Option (Sender × Operation) :=
  match Sender.identify c s.fleet.store r.headers r.target, operation? r with
  | .ok sender, some op => some (sender, op)
  | _, _ => none

/-- Whether a request opens a socket. -/
def opens (c : Context) (r : Request) (s : State) : Bool :=
  r.verb ≠ .options && Route.ofPath? r.path == some .socket &&
    (Sender.identify c s.fleet.store r.headers r.target).isOk &&
    Route.socket.allowed.contains r.verb && (Http.Handshake.check r).isOk

variable {c : Context} {r : Request} {s : State}

theorem perform_login_state (login : BotFleet.Login) :
    (s.perform (Login.perform c login)).state = s := by
  rw [perform, Login.run_perform]
  cases (Login.open? c s.fleet.store login).map (Login.welcome c s.fleet.store) <;> rfl

theorem serveLogin_state : (s.serveLogin c r).state = s := by
  unfold serveLogin
  split
  · split
    · rfl
    · exact perform_login_state _
  · rfl

theorem identified_state {α : Type} {route : Route} {work : Option α}
    {next : Sender → α → Served} :
    (s.identified c route r work next).state =
      match Sender.identify c s.fleet.store r.headers r.target, work with
      | .ok sender, some work => (next sender work).state
      | _, _ => s := by
  unfold identified
  cases Sender.identify c s.fleet.store r.headers r.target <;> cases work <;> rfl

theorem serveSocket_state :
    (s.serveSocket c r).state =
      if (Sender.identify c s.fleet.store r.headers r.target).isOk &&
          Route.socket.allowed.contains r.verb && (Http.Handshake.check r).isOk then
        (s.openSocket c).state
      else s := by
  rw [serveSocket, identified_state]
  cases Sender.identify c s.fleet.store r.headers r.target with
  | error e => rfl
  | ok sender =>
    by_cases hverb : r.verb ∈ Route.socket.allowed
    · have hcontains : Route.socket.allowed.contains r.verb = true := by simpa using hverb
      rw [if_pos hverb, hcontains]
      cases Http.Handshake.check r <;> rfl
    · have hcontains : Route.socket.allowed.contains r.verb = false := by simpa using hverb
      rw [if_neg hverb, hcontains]
      rfl

theorem serveResource_state {resource : Resource} (hverb : r.verb ≠ .options)
    (hroute : Route.ofPath? r.path = some (.resource resource)) :
    (s.serveResource c resource r).state =
      match s.asked c r with
      | some (sender, op) => (s.perform (op.perform c sender)).state
      | none => s := by
  rw [serveResource, identified_state, asked, operation?, if_neg hverb, hroute]
  cases Sender.identify c s.fleet.store r.headers r.target with
  | error e => rfl
  | ok sender =>
    dsimp only
    cases resource.reader? r.verb with
    | none => rfl
    | some reader =>
      dsimp only [Option.bind_some]
      cases reader r <;> rfl

/-- A request changes nothing unless it is admitted as an operation or opens a
socket. -/
theorem serve_state :
    (s.serve c r).state =
      match s.asked c r with
      | some (sender, op) => (s.perform (op.perform c sender)).state
      | none => if s.opens c r then (s.openSocket c).state else s := by
  have hnone (h : operation? r = none) : s.asked c r = none := by
    rw [asked, h]
    cases Sender.identify c s.fleet.store r.headers r.target <;> rfl
  by_cases hverb : r.verb = .options
  · rw [serve, if_pos hverb, hnone (if_pos hverb), opens, decide_eq_false (by simp [hverb])]
    rfl
  · rw [serve, if_neg hverb, opens, decide_eq_true hverb, Bool.true_and]
    show (s.serveRoute c r).state = _
    rw [serveRoute]
    cases hroute : Route.ofPath? r.path with
    | none =>
      rw [hnone (by rw [operation?, if_neg hverb, hroute])]
      rfl
    | some route =>
      cases route with
      | login =>
        rw [hnone (by rw [operation?, if_neg hverb, hroute])]
        exact serveLogin_state
      | socket =>
        rw [hnone (by rw [operation?, if_neg hverb, hroute])]
        exact serveSocket_state
      | resource resource =>
        show (s.serveResource c resource r).state = _
        rw [serveResource_state hverb hroute]
        cases s.asked c r <;> rfl

/-! ## What an event does to the fleet -/

theorem perform_of_ok {action : Action Answer} {a : Answer} {fleet : Fleet}
    (h : action.run s.fleet = (.ok a, fleet)) :
    s.perform action =
      ⟨a.response, ⟨fleet, (announce a.change s.registry).registry⟩,
        a.notices ++ (announce a.change s.registry).notices⟩ := by
  rw [perform, h]

theorem perform_of_error {action : Action Answer} {failure : Failure} {fleet : Fleet}
    (h : action.run s.fleet = (.error failure, fleet)) :
    s.perform action = fail failure { s with fleet } := by
  rw [perform, h]

theorem perform_fleet (action : Action Answer) :
    (s.perform action).state.fleet = (action.run s.fleet).2 := by
  rw [perform]
  rcases action.run s.fleet with ⟨failure | a, fleet⟩ <;> rfl

/-- An operation either follows its rules and tells the subscribers, or fails and
leaves all but the link to the daemon as it was. -/
theorem perform_cases (hs : s.fleet.store.Sound) (sender : Sender) (op : Operation) :
    (∃ a fleet, Effect c sender s.fleet op a fleet ∧
      s.perform (op.perform c sender) =
        ⟨a.response, ⟨fleet, (announce a.change s.registry).registry⟩,
          a.notices ++ (announce a.change s.registry).notices⟩) ∨
      ∃ failure fleet, s.fleet.Alike fleet ∧
        s.perform (op.perform c sender) = fail failure { s with fleet } := by
  rcases hrun : (op.perform c sender).run s.fleet with ⟨failure | a, fleet⟩
  · exact .inr ⟨failure, fleet, Operation.perform_error hs hrun, perform_of_error hrun⟩
  · exact .inl ⟨a, fleet, Operation.perform_ok hrun, perform_of_ok hrun⟩

theorem openSocket_fleet : (s.openSocket c).state.fleet = s.fleet := by
  unfold openSocket
  split <;> rfl

theorem receive_fleet (id : SessionId) (item : Socket.Item) :
    (s.receive id item).fleet = s.fleet := by
  unfold receive
  split <;> rfl

/-- Only requests that are admitted as an operation do anything to what is stored or
running, and then they tell the subscribers. -/
theorem next_fleet (d : Setup) (hs : s.fleet.store.Sound) (e : Event) :
    (∃ m r sender op a, e = .request m r ∧ s.asked (d.context m) r = some (sender, op) ∧
      Effect (d.context m) sender s.fleet op a (s.next d e).fleet ∧
      (s.next d e).registry = (announce a.change s.registry).registry) ∨
      s.fleet.Alike (s.next d e).fleet := by
  cases e with
  | request m r =>
    rw [next, serve_state]
    cases hasked : s.asked (d.context m) r with
    | none =>
      refine .inr ?_
      dsimp only
      split
      · rw [openSocket_fleet]
        exact .refl _
      · exact .refl _
    | some admitted =>
      obtain ⟨sender, op⟩ := admitted
      dsimp only
      rcases perform_cases (c := d.context m) hs sender op with
        ⟨a, fleet, heffect, hperform⟩ | ⟨failure, fleet, halike, hperform⟩
      · rw [hperform]
        exact .inl ⟨m, r, sender, op, a, rfl, hasked, heffect, rfl⟩
      · rw [hperform]
        exact .inr halike
  | received session item =>
    refine .inr ?_
    rw [next, receive_fleet]
    exact .refl _
  | dropped place => exact .inr (.refl _)
  | daemon pending otherwise => exact .inr ⟨rfl, rfl⟩

theorem next_sound {d : Setup} (hs : s.fleet.store.Sound) (e : Event) :
    (s.next d e).fleet.store.Sound := by
  rcases next_fleet d hs e with ⟨m, r, sender, op, a, -, -, heffect, -⟩ | halike
  · exact heffect.sound hs
  · rw [halike.store]
    exact hs

/-- The store that is prepared is one that was found, with the first account ensured in it. -/
theorem ensureRoot_of_prepare {c : Context} {draws : List Nat}
    {opening : Store.Location → Except Store.Fault Store} {password : Option String}
    {after : Store} (h : Startup.prepare c draws opening = .ok (password, after)) :
    ∃ location store, opening location = .ok store ∧
      Bootstrap.ensureRoot c.scheme c.config.hashCost c.now ⟨draws, c.salt⟩ store =
        .ok (password, after) := by
  rw [Startup.prepare] at h
  cases hlocate : Startup.locate c.config with
  | error e => simp [hlocate, bind, Except.bind] at h
  | ok location =>
    cases hopening : opening location with
    | error e =>
      have hfails : (opening location).mapError Failure.store = .error (.store e) := by
        rw [hopening]
        rfl
      simp [hlocate, hfails, bind, Except.bind] at h
    | ok store =>
      have hopens : (opening location).mapError Failure.store = .ok store := by
        rw [hopening]
        rfl
      refine ⟨location, store, hopening, ?_⟩
      cases hwritable : Startup.checkWritable location with
      | error e => simp [hlocate, hopens, hwritable, bind, Except.bind] at h
      | ok u => simpa [hlocate, hopens, hwritable, bind, Except.bind] using h

/-- A start adds the first account to what is stored, if that is missing, and tries
every instance that starts together with the service. -/
theorem eq_of_run {d : Setup} {m : Moment} {draws : List Nat} {store : Store} {link : Daemon.Link}
    (h : (Startup.run (d.context m) draws (fun _ => .ok store) link).state = .ok s) :
    ∃ (password : Option String) (after : Store) (link : Daemon.Link),
      Bootstrap.ensureRoot d.scheme d.config.hashCost m.now ⟨draws, m.salt⟩ store =
        .ok (password, after) ∧
      s = ⟨⟨after, (Daemon.Control.autostart after.autostartInstances ⟨[], link⟩).control⟩,
        .empty⟩ := by
  rw [Startup.run] at h
  dsimp only at h
  split at h
  · cases h
  · rename_i password after hprepare
    obtain ⟨-, -, rfl⟩ := Json.map_eq_ok h
    obtain ⟨-, found, hfound, hroot⟩ := ensureRoot_of_prepare hprepare
    cases hfound
    exact ⟨password, after, _, hroot, rfl⟩

theorem StartsFrom.eq {d : Setup} {store : Store} (h : s.StartsFrom d store) :
    ∃ (m : Moment) (draws : List Nat) (password : Option String) (after : Store)
      (link : Daemon.Link),
      Bootstrap.ensureRoot d.scheme d.config.hashCost m.now ⟨draws, m.salt⟩ store =
        .ok (password, after) ∧
      s = ⟨⟨after, (Daemon.Control.autostart after.autostartInstances ⟨[], link⟩).control⟩,
        .empty⟩ := by
  obtain ⟨m, draws, link, h⟩ := h
  obtain ⟨password, after, link', hroot, rfl⟩ := eq_of_run h
  exact ⟨m, draws, password, after, link', hroot, rfl⟩

theorem StartsFrom.sound {d : Setup} {store : Store} (h : s.StartsFrom d store)
    (hs : store.Sound) : s.fleet.store.Sound := by
  obtain ⟨m, draws, password, after, link, hroot, rfl⟩ := h.eq
  exact hs.ensureRoot hroot

theorem Reachable.sound {d : Setup} (h : Reachable d s) : s.fleet.store.Sound := by
  induction h with
  | started h => exact h.sound .fresh
  | restarted _ h ih => exact h.sound ih
  | next _ e ih => exact next_sound ih e

/-- A start yields the state, on an empty store or on what a run has stored. -/
def Started (d : Setup) (s : State) : Prop :=
  s.StartsFrom d .fresh ∨ ∃ s', Reachable d s' ∧ s.StartsFrom d s'.fleet.store

theorem Started.exists_store {d : Setup} (h : Started d s) :
    ∃ store, s.StartsFrom d store ∧ store.Sound := by
  rcases h with h | ⟨s', hs', h⟩
  · exact ⟨.fresh, h, .fresh⟩
  · exact ⟨s'.fleet.store, h, hs'.sound⟩

theorem Started.reachable {d : Setup} (h : Started d s) : Reachable d s := by
  rcases h with h | ⟨s', hs', h⟩
  · exact .started h
  · exact .restarted hs' h

theorem Started.sound {d : Setup} (h : Started d s) : s.fleet.store.Sound := by
  obtain ⟨store, hstart, hstore⟩ := h.exists_store
  exact hstart.sound hstore

/-! ## A start that has prepared the store -/

/-- What is running once the instances have been started that start with the service. -/
def startedWith (d : Setup) (link : Daemon.Link) (store : Store) : Daemon.Control :=
  (Daemon.Control.autostart store.autostartInstances
    ⟨[], { link with base := d.config.daemonBase }⟩).control

section Prepared

variable {d : Setup} {m : Moment} {draws : List Nat}
  {opening : Store.Location → Except Store.Fault Store} {password : Option String} {after : Store}

theorem link_of_prepare (link : Daemon.Link)
    (h : Startup.prepare (d.context m) draws opening = .ok (password, after)) :
    (Startup.run (d.context m) draws opening link).link = (startedWith d link after).link := by
  rw [Startup.run]
  simp only [h]
  rfl

/-- The daemon is asked first, and the origin is looked at then. -/
theorem state_of_prepare (link : Daemon.Link)
    (h : Startup.prepare (d.context m) draws opening = .ok (password, after)) :
    (Startup.run (d.context m) draws opening link).state =
      (Startup.checkOrigin d.config.corsOrigin).map fun _ =>
        ⟨⟨after, startedWith d link after⟩, .empty⟩ := by
  rw [Startup.run]
  simp only [h]
  rfl

end Prepared

/-! ## A first start -/

theorem run_of_prepare {d : Setup} {m : Moment} {draws : List Nat} {link : Daemon.Link}
    {store after : Store} {password : Option String}
    (hprepare : Startup.prepare (d.context m) draws (fun _ => .ok store) = .ok (password, after))
    (horigin : Startup.checkOrigin d.config.corsOrigin = .ok ()) :
    (Startup.run (d.context m) draws (fun _ => .ok store) link).state =
      .ok ⟨⟨after, (Daemon.Control.autostart after.autostartInstances
        ⟨[], { link with base := d.config.daemonBase }⟩).control⟩, .empty⟩ := by
  rw [state_of_prepare link hprepare, horigin]
  rfl

/-- What is stored by a first start for which no password was drawn. -/
def firstStore : Store :=
  { Store.fresh with
    users := [⟨.zero, "root", true, "", ⟨0, 0⟩⟩]
    userGrants := [⟨.zero, .zero⟩] }

/-- The state after such a start, when all requests to the daemon have one outcome. -/
def first (otherwise : Daemon.Outcome) : State :=
  ⟨⟨firstStore, ⟨[], ⟨"http://127.0.0.1:1337", [], otherwise, []⟩⟩⟩, .empty⟩

theorem locate_plain :
    Startup.locate Setup.plain.config = .ok ⟨some "yamba.db", false, false, false⟩ := by
  have htrim : Store.Location.trimStart "sqlite:".toList
      (Store.Location.trimStart "sqlite://".toList "sqlite://yamba.db".toList) =
      "yamba.db".toList := by
    have hfront : "sqlite://yamba.db".toList = "sqlite://".toList ++ "yamba.db".toList := rfl
    have hrest : Store.Location.trimStart "sqlite://".toList "yamba.db".toList =
        "yamba.db".toList :=
      Store.Location.trimStart_of_not_prefix (by decide)
    rw [hfront, Store.Location.trimStart_append (by decide), hrest,
      Store.Location.trimStart_of_not_prefix (by decide)]
  have hname : Store.Location.ofName? "yamba.db" = some ⟨some "yamba.db", false, false, false⟩ := by
    rw [Store.Location.ofName?, if_neg (by decide), Http.Percent.decode?_of_no_percent (by decide)]
    rfl
  have hurl : Store.Location.ofUrl? "sqlite://yamba.db" =
      some ⟨some "yamba.db", false, false, false⟩ := by
    rw [Store.Location.ofUrl?, htrim]
    show (Store.Location.ofName? "yamba.db").bind _ = _
    rw [hname]
    rfl
  show Startup.locate Config.default = _
  rw [Startup.locate, show Config.default.databaseUrl = "sqlite://yamba.db" from rfl, hurl]
  rfl

theorem run_first (otherwise : Daemon.Outcome) :
    (Startup.run (Setup.plain.context .epoch) [] (fun _ => .ok .fresh)
      ⟨"", [], otherwise, []⟩).state = .ok (first otherwise) := by
  have hprepare : Startup.prepare (Setup.plain.context .epoch) [] (fun _ => .ok .fresh) =
      .ok (some "", firstStore) := by
    have hlocate : Startup.locate (Setup.plain.context .epoch).config = _ := locate_plain
    rw [Startup.prepare, hlocate]
    rfl
  have horigin : Startup.checkOrigin Config.default.corsOrigin = .ok () := rfl
  exact run_of_prepare hprepare horigin

theorem started_first (otherwise : Daemon.Outcome) : Started .plain (first otherwise) :=
  .inl ⟨.epoch, [], ⟨"", [], otherwise, []⟩, run_first otherwise⟩

theorem reachable_first (otherwise : Daemon.Outcome) : Reachable .plain (first otherwise) :=
  (started_first otherwise).reachable

end State
end Service
end BotFleet
