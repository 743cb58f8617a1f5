import BotFleet.Proofs.Service.Listing
import BotFleet.Proofs.Service.Outboxes
import BotFleet.Proofs.Service.Staleness
import BotFleet.Proofs.Service.Verdict

/-
What a request queues, and for whom.

A request that alters something is told to the watchers of the listing that its path is
about, once it has succeeded.  Three kinds of requests may succeed without altering
anything, because what they ask for is so already, and nobody is told of them.  Nothing
else that a request does queues a frame for anyone.

The theorem this file exists for is `notifies_exactly`.
-/

namespace BotFleet

namespace Registry

variable {r r' : Registry} {id : SessionId}

/-- The session is subscribed to the listing, and somebody takes from its outbox. -/
structure Watches (r : Registry) (t : Topic) (x : Session) : Prop where
  registered : x ∈ r.sessions
  subscribed : t.path ∈ x.topics
  live : r.isReceiving x = true

/-- Nothing was queued in between, and outboxes that are new are empty. -/
structure Rests (r r' : Registry) : Prop where
  kept : ∀ (place : Nat) o, r.outboxes[place]? = some o → r'.outboxes[place]? = some o
  opened : ∀ (place : Nat) o, r.outboxes[place]? = none → r'.outboxes[place]? = some o → o.frames = []

theorem Rests.refl (r : Registry) : Rests r r where
  kept _ _ h := h
  opened place o hnone hsome := by
    rw [hnone] at hsome
    cases hsome

theorem rests_connect (h : r.connect id = .ok r') : Rests r r' := by
  unfold connect at h
  split at h
  · cases h
  · cases h
    constructor
    · intro place o ho
      rw [List.getElem?_append_left (List.getElem?_eq_some_iff.mp ho).1, ho]
    · intro place o hnone hsome
      rw [List.getElem?_append_right (List.getElem?_eq_none_iff.mp hnone)] at hsome
      rw [List.mem_singleton.mp (List.mem_of_getElem? hsome)]
      rfl

theorem Rests.queued {x : Session} (h : Rests r r') (hsound : r.Sound) (hx : x ∈ r.sessions) :
    Queued r r' x.outbox [] := by
  have ho := List.getElem?_eq_getElem (hsound.bound _ (mem_places hx))
  refine ⟨_, ho, ?_⟩
  rw [List.append_nil]
  exact h.kept _ _ ho

theorem opened_notify {topic : String} {place : Nat} (hnone : r.outboxes[place]? = none) :
    (r.notify topic).registry.outboxes[place]? = none := by
  rw [List.getElem?_eq_none_iff] at hnone ⊢
  rwa [notify_length]

end Registry

namespace Service

open Http (Request)

/-! ## What an operation announces -/

/-- What the operation asks for is so already. -/
inductive Fleet.Repeats (f : Fleet) : Operation → Prop
  | member {group user : Id} (h : ⟨group, user⟩ ∈ f.store.memberships) :
    Repeats f (.addMember group user)
  | running {id : Id} (h : f.isRunning id = true) : Repeats f (.startInstance id)
  | stopped {id : Id} (h : f.isRunning id = false) : Repeats f (.stopInstance id)

/-- An operation that succeeds names a change of the listing that it alters, unless what it
asks for was so already. -/
theorem Effect.change_cases {c : Context} {sender : Sender} {f f' : Fleet} {op : Operation}
    {a : Answer} (h : Effect c sender f op a f') :
    (∃ change t, a.change = some change ∧ t ∈ change.topics ∧ op.topic? = some t ∧
        ¬f.Repeats op) ∨
      a.change = none ∧ (op.topic? = none ∨ f.Repeats op) := by
  cases h with
  | createUser | editUser | deleteUser | grantUser | revokeUser =>
    exact .inl ⟨.users, .users, rfl, List.mem_singleton_self _, rfl, nofun⟩
  | createGroup | renameGroup | deleteGroup | grantGroup | revokeGroup =>
    exact .inl ⟨.groups, .groups, rfl, List.mem_singleton_self _, rfl, nofun⟩
  | addMember hcall =>
    obtain ⟨-, -, hadded, -⟩ := Store.addMember_eq_ok hcall
    refine .inl ⟨.groupMembers, .groups, rfl, List.mem_singleton_self _, rfl, ?_⟩
    rintro ⟨hm⟩
    simp [hm] at hadded
  | stayMember hcall =>
    obtain ⟨-, -, hstays, -⟩ := Store.addMember_eq_ok hcall
    exact .inr ⟨rfl, .inr (.member (by simpa using hstays))⟩
  | removeMember =>
    exact .inl ⟨.groupMembers, .groups, rfl, List.mem_singleton_self _, rfl, nofun⟩
  | createInstance | editInstance | deleteInstance | dropInstance =>
    exact .inl ⟨.instances, .instances, rfl, List.mem_singleton_self _, rfl, nofun⟩
  | startInstance hi hstart =>
    obtain ⟨hrun, -⟩ := Daemon.Control.start_eq_ok_true hstart
    refine .inl ⟨.instanceState, .instances, rfl, List.mem_singleton_self _, rfl, ?_⟩
    rintro (_ | ⟨hrunning⟩)
    rw [← Table.key_of_find? hi] at hrunning
    exact absurd hrunning (Bool.eq_false_iff.mp hrun)
  | keepStarted hi hrun =>
    exact .inr ⟨rfl, .inr (.running (Table.key_of_find? hi ▸ hrun))⟩
  | stopInstance hi hstop =>
    obtain ⟨hrun, -⟩ := Daemon.Control.stop_eq_ok_true hstop
    refine .inl ⟨.instanceState, .instances, rfl, List.mem_singleton_self _, rfl, ?_⟩
    rintro (_ | _ | ⟨hstopped⟩)
    rw [← Table.key_of_find? hi] at hstopped
    exact absurd hrun (Bool.eq_false_iff.mp hstopped)
  | keepStopped hi hrun =>
    exact .inr ⟨rfl, .inr (.stopped (Table.key_of_find? hi ▸ hrun))⟩
  | showMe | listUsers | showUser | listGroups | showGroup | listInstances | showInstance
  | listAuthorities => exact .inr ⟨rfl, .inl rfl⟩

namespace State

variable {d : Setup} {c : Context} {s : State} {m : Moment} {r : Request} {t u : Topic}

/-! ## What a request announces -/

/-- What the request asks for is so already. -/
def Repeats (s : State) (r : Request) : Prop := ∃ op, operation? r = some op ∧ s.fleet.Repeats op

/-- The request asks for something about the listing to be altered, and succeeds in that. -/
structure Announces (c : Context) (s : State) (r : Request) (t : Topic) : Prop where
  altering : r.verb ∈ altering
  covers : t.Covers r.path
  success : (s.serve c r).response.isFailure = false
  news : ¬s.Repeats r

theorem verb_ne_options (h : r.verb ∈ altering) : r.verb ≠ .options := by
  intro hverb
  rw [hverb] at h
  exact absurd h (by decide)

theorem isFailure_of_status {served : Served} (h : 400 ≤ served.response.status) :
    (finish c r served).response.isFailure = true := by
  rw [Http.Response.isFailure, finish_status]
  exact decide_eq_true h

/-- A request about a listing that is not answered as a failure has asked for an
operation. -/
theorem exists_asked (hverb : r.verb ≠ .options) (hcovers : t.Covers r.path)
    (hsuccess : (s.serve c r).response.isFailure = false) :
    ∃ sender op, s.asked c r = some (sender, op) := by
  -- Each stage before the operation answers whatever it turns away as a failure.
  have hnever {served : Served} (hserved : s.serve c r = finish c r served)
      (hstatus : 400 ≤ served.response.status) : False := by
    rw [hserved, isFailure_of_status hstatus] at hsuccess
    cases hsuccess
  cases hroute : Route.ofPath? r.path with
  | none =>
    have hserved : s.serve c r = finish c r (s.fail unknownPath) := by
      rw [serve, if_neg hverb]
      show finish c r (s.serveRoute c r) = _
      rw [serveRoute, hroute]
    exact (hnever hserved (Nat.le_succ_of_le (by decide))).elim
  | some route =>
    have htopic := (Route.covers_iff hroute).mp hcovers
    cases route with
    | login | socket => cases htopic
    | resource resource =>
      cases hidentify : Sender.identify c s.fleet.store r.headers r.target with
      | error failure =>
        obtain ⟨hstatus, -⟩ := serve_of_identify_error hverb hroute (by simp) hidentify
        rw [Http.Response.isFailure, hstatus, Sender.identify_error_status hidentify] at hsuccess
        cases hsuccess
      | ok sender =>
        have hserved := serve_of_identify hverb hroute (by simp) hidentify
        rw [proceed] at hserved
        cases hreader : resource.reader? r.verb with
        | none =>
          rw [hreader] at hserved
          exact (hnever hserved (by simp [wrongMethod])).elim
        | some reader =>
          cases hread : reader r with
          | error rejection =>
            simp only [hreader, hread] at hserved
            exact (hnever hserved rejection.le_status).elim
          | ok op =>
            exact ⟨sender, op, asked_eq_some_iff.mpr
              ⟨hidentify, operation?_eq_some hverb hroute hreader hread⟩⟩

theorem Announces.exists_asked (h : s.Announces c r t) :
    ∃ sender op, s.asked c r = some (sender, op) :=
  State.exists_asked (verb_ne_options h.altering) h.covers h.success

/-- A request is about one listing at most. -/
theorem Announces.unique (ht : s.Announces c r t) (hu : s.Announces c r u) : t = u := by
  obtain ⟨sender, op, hasked⟩ := ht.exists_asked
  have hop := (asked_eq_some_iff.mp hasked).2
  have hone := (topic?_of_operation? hop).mpr ⟨ht.altering, ht.covers⟩
  rw [(topic?_of_operation? hop).mpr ⟨hu.altering, hu.covers⟩] at hone
  exact (Option.some.inj hone).symm

/-- The request only reads, logs in or fails, or what it asks for is so already. -/
def Silent (c : Context) (s : State) (r : Request) : Prop :=
  r.verb ∉ altering ∨ r.path = "/api/auth/login" ∨ (s.serve c r).response.isFailure = true ∨
    s.Repeats r

theorem Silent.not_announces (h : s.Silent c r) (t : Topic) : ¬s.Announces c r t := by
  intro ht
  rcases h with hverb | hlogin | hfailure | hrepeats
  · exact hverb ht.altering
  · have hroute : Route.ofPath? r.path = some .login := by
      rw [hlogin]
      rfl
    have htopic := (Route.covers_iff hroute).mp ht.covers
    cases htopic
  · rw [ht.success] at hfailure
    cases hfailure
  · exact ht.news hrepeats

/-! ## What a request queues -/

theorem rests_openSocket : s.registry.Rests (s.openSocket c).state.registry := by
  unfold openSocket
  split
  · rename_i registry hconnect
    exact Registry.rests_connect hconnect
  · exact .refl _

/-- The watchers of a listing are told if an operation has altered it. -/
theorem registry_of_asked {sender : Sender} {op : Operation}
    (hasked : s.asked c r = some (sender, op)) :
    (∃ t, s.Announces c r t ∧
        (s.serve c r).state.registry = (s.registry.notify t.path).registry) ∨
      (∀ t, ¬s.Announces c r t) ∧ (s.serve c r).state.registry = s.registry := by
  have hop := (asked_eq_some_iff.mp hasked).2
  have hfailure := isFailure_serve hasked
  have hstate : (s.serve c r).state = (s.perform (op.perform c sender)).state := by
    rw [serve_of_asked hasked]
    rfl
  rw [hstate]
  rcases hrun : (op.perform c sender).run s.fleet with ⟨failure | a, fleet⟩
  · have hcandid : 400 ≤ failure.status := op.candid _ _ _ hrun
    rw [perform_of_error hrun] at hfailure ⊢
    refine .inr ⟨fun t ht => ?_, rfl⟩
    have hfailed := hfailure.trans (decide_eq_true hcandid)
    rw [ht.success] at hfailed
    cases hfailed
  · -- The status tells success here, so only a repeat can keep the request from announcing.
    have heffect := Operation.perform_ok hrun
    rw [perform_of_ok hrun] at hfailure ⊢
    have hsuccess := hfailure.trans (decide_eq_false (Nat.not_le.mpr heffect.status_lt))
    rcases heffect.change_cases with ⟨change, t, hchange, ht, htopic, hnews⟩ | ⟨hchange, hnothing⟩
    · obtain ⟨haltering, hcovers⟩ := (topic?_of_operation? hop).mp htopic
      refine .inl ⟨t, ⟨haltering, hcovers, hsuccess, ?_⟩, ?_⟩
      · rintro ⟨other, hother, hrepeats⟩
        rw [hop] at hother
        cases hother
        exact hnews hrepeats
      · rw [hchange]
        exact Registry.notifyChange_registry ht
    · refine .inr ⟨fun t ht => ?_, ?_⟩
      · rcases hnothing with hnone | hrepeats
        · have htopic := (topic?_of_operation? hop).mpr ⟨ht.altering, ht.covers⟩
          rw [hnone] at htopic
          cases htopic
        · exact ht.news ⟨op, hop, hrepeats⟩
      · rw [hchange]
        rfl

/-- The watchers of a listing are told if the request announces it, and otherwise nothing is
queued. -/
theorem serve_registry_cases :
    (∃ t, s.Announces c r t ∧
        (s.serve c r).state.registry = (s.registry.notify t.path).registry) ∨
      (∀ t, ¬s.Announces c r t) ∧ s.registry.Rests (s.serve c r).state.registry := by
  cases hasked : s.asked c r with
  | none =>
    refine .inr ⟨fun t ht => ?_, ?_⟩
    · obtain ⟨sender, op, hsome⟩ := ht.exists_asked
      rw [hasked] at hsome
      cases hsome
    · rw [serve_state, hasked]
      dsimp only
      split
      · exact rests_openSocket
      · exact .refl _
  | some admitted =>
    rcases registry_of_asked hasked with htold | ⟨hnone, hsame⟩
    · exact .inl htold
    · rw [hsame]
      exact .inr ⟨hnone, .refl _⟩

/-- What is queued by a request. -/
structure Notifies (c : Context) (s : State) (r : Request) : Prop where
  /-- Those who watch the listing that the request announces are told once. -/
  told : ∀ t x, s.Announces c r t → s.registry.Watches t x →
    s.registry.Queued (s.serve c r).state.registry x.outbox [.update t.path]
  /-- There is one such listing at most. -/
  one : ∀ t u, s.Announces c r t → s.Announces c r u → t = u
  untold : ∀ x ∈ s.registry.sessions, (∀ t, s.Announces c r t → ¬s.registry.Watches t x) →
    s.registry.Queued (s.serve c r).state.registry x.outbox []
  /-- What no session has as its outbox stays as it is. -/
  ownerless : ∀ place ∉ s.registry.places, ∀ o, s.registry.outboxes[place]? = some o →
    (s.serve c r).state.registry.outboxes[place]? = some o
  opened : ∀ (place : Nat) o, s.registry.outboxes[place]? = none →
    (s.serve c r).state.registry.outboxes[place]? = some o → o.frames = []
  silent : s.Silent c r → s.registry.Rests (s.serve c r).state.registry

/-- Whatever the state and the request, a session that is subscribed to the listing of the
request and takes from its outbox is told once if the request is a successful one to alter
something, and what it asks for was not so already.  Nothing else is queued for anyone. -/
theorem notifies_exactly (hs : Reachable d s) (m : Moment) (r : Request) :
    s.Notifies (d.context m) r := by
  have hsound := hs.registry_sound
  rcases serve_registry_cases (c := d.context m) (s := s) (r := r) with
    ⟨t, ht, hregistry⟩ | ⟨hnone, hrests⟩
  · refine ⟨?_, fun _ _ hu hv => hu.unique hv, ?_, ?_, ?_, fun h => absurd ht (h.not_announces t)⟩
    · intro u x hu hx
      have hqueued := hsound.queued_notify t.path hx.registered
      obtain rfl := hu.unique ht
      rw [if_pos ⟨hx.subscribed, hx.live⟩] at hqueued
      rwa [hregistry]
    · intro x hx hnot
      have hqueued := hsound.queued_notify t.path hx
      rw [if_neg fun htold => hnot t ht ⟨hx, htold.1, htold.2⟩] at hqueued
      rwa [hregistry]
    · intro place hplace o ho
      rw [hregistry, Registry.notify_outbox_of_not_mem hplace, ho]
    · intro place o hnone hsome
      rw [hregistry, Registry.opened_notify hnone] at hsome
      cases hsome
  · exact {
      told := fun u _ hu _ => absurd hu (hnone u)
      one := fun _ _ hu hv => hu.unique hv
      untold := fun _ hx _ => hrests.queued hsound hx
      ownerless := fun place _ => hrests.kept place
      opened := hrests.opened
      silent := fun _ => hrests }

/-- The watcher of the groups is told once that the group is deleted, and not at all when
its only member is added once more. -/
theorem watched_notifies :
    let c := Setup.plain.context .epoch
    let dissolve := byRoot c (bare .delete "/api/group/1")
    let rejoin := byRoot c (bare .put "/api/group/1/member/0")
    watched.registry.Queued (watched.serve c dissolve).state.registry 0
        [.update Topic.groups.path] ∧
      (watched.serve c rejoin).response.isFailure = false ∧
      watched.registry.Queued (watched.serve c rejoin).state.registry 0 [] := by
  intro c dissolve rejoin
  let x : Session := ⟨"a", [Topic.groups.path], 0⟩
  have hx : watched.registry.Watches .groups x :=
    ⟨List.mem_singleton_self _, List.mem_singleton_self _, rfl⟩
  have hdissolve : watched.asked c dissolve = some (root, .deleteGroup Table.firstId) := by
    have hroute : Route.ofPath? "/api/group/1" = some (.resource (.group "1")) := rfl
    exact asked_watched (operation?_withId (by decide) hroute rfl)
  have hrejoin : watched.asked c rejoin = some (root, .addMember Table.firstId .zero) := by
    have hroute : Route.ofPath? "/api/group/1/member/0" = some (.resource (.groupMember "1" "0")) :=
      rfl
    exact asked_watched (operation?_withIds (by decide) hroute rfl)
  have hannounces : watched.Announces c dissolve .groups := by
    have hop := (asked_eq_some_iff.mp hdissolve).2
    obtain ⟨haltering, hcovers⟩ := (topic?_of_operation? (t := .groups) hop).mp rfl
    refine ⟨haltering, hcovers, (isFailure_serve hdissolve).trans rfl, ?_⟩
    rintro ⟨op, hother, hrepeats⟩
    rw [hop] at hother
    cases hother
    cases hrepeats
  have hsilent : watched.Silent c rejoin :=
    .inr (.inr (.inr ⟨_, (asked_eq_some_iff.mp hrejoin).2, .member (List.mem_singleton_self _)⟩))
  refine ⟨?_, (isFailure_serve hrejoin).trans rfl, ?_⟩
  · exact (notifies_exactly reachable_watched .epoch dissolve).told _ x hannounces hx
  · refine (notifies_exactly reachable_watched .epoch rejoin).untold x hx.registered ?_
    exact fun t ht => absurd ht (hsilent.not_announces t)

end State
end Service
end BotFleet
