import BotFleet.Proofs.Service.Notifications
import BotFleet.Proofs.Store.Faults

/-
Requests for accounts of one name that are under way at the same time.

Each of them looks whether the name is free, then enters the account, and then tells the
watchers of the accounts.  Nothing keeps others from taking their steps between the look-up
and the entry, so any number of requests may find the name free.

The entry looks for the name once more, and that look and the writing are one step.  So the
first request that comes to it gets the account, and whoever comes later is refused: by the
look-up if the account is there by then, and by the entry if the look-up came before it.
Both refusals are conflicts, and neither leaves anything behind.  Each request is answered
after three turns at the latest.

`Contest.Open` is what holds before anybody has entered an account and `Contest.Won` what
holds from then on.  The theorem this file exists for is `one_created`.
-/

namespace BotFleet

/-! ## Hashing -/

namespace Password

/-- It depends on the cost alone whether a password can be hashed. -/
def Scheme.Uniform (s : Scheme) : Prop :=
  ∀ cost salt password salt' password' stored, s.hash cost salt password = .ok stored →
    ∃ stored', s.hash cost salt' password' = .ok stored'

theorem Scheme.blowfish_uniform : Scheme.blowfish.Uniform := by
  intro cost salt password salt' password' stored h
  refine exists_hash ?_ salt' password'
  by_contra hcost
  have hdigest : digest cost salt password = .error (.costNotAllowed cost) := if_neg hcost
  have hfails : Scheme.blowfish.hash cost salt password = .error (.costNotAllowed cost) := by
    show (digest cost salt password).map _ = _
    rw [hdigest]
    rfl
  rw [hfails] at h
  cases h

end Password

/-! ## Entering an account -/

namespace Store

variable {s s' : Store} {name hash : String} {enabled : Bool} {now : Instant} {u : User}

/-- An account is entered unless its name is taken or there is no identifier left for it. -/
theorem createUser_cases (h : s.Sound) (name hash : String) (enabled : Bool) (now : Instant) :
    (∃ u s', s.createUser name hash enabled now = .ok (u, s')) ∨
      (∃ v, s.userNamed? name = some v) ∧
        s.createUser name hash enabled now = .error .duplicate ∨
      Table.nextId? s.users = none ∧ s.createUser name hash enabled now = .error full := by
  cases hid : Table.nextId? s.users with
  | none => exact .inr (.inr ⟨rfl, by rw [createUser, hid]⟩)
  | some id =>
    have hfresh := Table.not_has_of_nextId? hid
    have hauthority : Table.has userAuthority.id s.authorities = true := by
      rw [h.authorities]
      rfl
    rw [createUser, hid]
    cases hname : s.userNamed? name with
    | none => exact .inl ⟨_, _, addUser_eq_ok_iff.mpr ⟨hfresh, hname, hauthority, rfl, rfl⟩⟩
    | some u => exact .inr (.inl ⟨⟨u, rfl⟩, by simp [addUser, hname]⟩)

theorem exists_named_of_createUser (hc : s.createUser name hash enabled now = .ok (u, s')) :
    ∃ v, s'.userNamed? name = some v := by
  obtain ⟨id, -, -, -, -, rfl, rfl⟩ := createUser_eq_ok hc
  rw [← Option.isSome_iff_exists, userNamed?, List.find?_isSome]
  exact ⟨_, Table.mem_insert.mpr (.inl rfl), beq_self_eq_true name⟩

theorem length_of_createUser (hc : s.createUser name hash enabled now = .ok (u, s')) :
    s'.users.length = s.users.length + 1 := by
  obtain ⟨id, -, -, -, -, rfl, rfl⟩ := createUser_eq_ok hc
  exact (Table.perm_insert _ _).length_eq

/-- The row and the grant of a new account are all that belongs to its name. -/
theorem Sound.rows_of_createUser (h : s.Sound)
    (hc : s.createUser name hash enabled now = .ok (u, s')) :
    s'.users.filter (·.username == name) = [u] ∧
      s'.userGrants.filter (·.holder == u.id) = [⟨u.id, userAuthority.id⟩] := by
  obtain ⟨id, -, hfresh, hname, -, rfl, rfl⟩ := createUser_eq_ok hc
  constructor
  · have hnone : s.users.filter (·.username == name) = [] := by
      simpa using userNamed?_eq_none_iff.mp hname
    have hperm := (Table.perm_insert ⟨id, name, enabled, hash, now⟩ s.users).filter
      (·.username == name)
    rw [List.filter_cons_of_pos (by simp), hnone] at hperm
    exact List.perm_singleton.mp hperm
  · have hnone : s.userGrants.filter (·.holder == id) = [] := by
      rw [List.filter_eq_nil_iff]
      rintro ⟨holder, authority⟩ hg hholder
      obtain rfl : holder = id := eq_of_beq hholder
      exact h.not_mem_userGrants hfresh authority hg
    show (link _ _).filter _ = _
    rw [link, if_neg (h.not_mem_userGrants hfresh _), List.filter_append, hnone]
    simp

end Store

/-- The name and the password follow the rules. -/
structure NewUser.Valid (request : NewUser) : Prop where
  username : Validation.username request.username = .ok ()
  password : Validation.password request.password = .ok ()

namespace Service

open Http (Response)
open Json (Message)

/-! ## The parts of a request for an account -/

namespace Users

/-- Looks whether there may be such an account. -/
def lookUp (request : NewUser) : Action Unit := do
  Action.check (Validation.username request.username)
  Action.check (Validation.password request.password)
  if (← Action.read fun f => f.store.userNamed? request.username).isSome then
    Action.fail (.conflict s!"Username '{request.username}' is already taken")

def enter (c : Context) (request : NewUser) : Action User := do
  let hash ← Action.hash c request.password
  Action.call (Store.createUser request.username hash request.enabled c.now)

def entered (user : User) : Answer := .created (Message.toJson user) .users

variable {c : Context} {request : NewUser} {f f' : Fleet} {user : User}

/-- The parts one after another are the whole. -/
theorem create_eq (c : Context) (request : NewUser) : create c request = (do
    lookUp request
    return entered (← enter c request)) := by
  funext f
  show (create c request).run f = Action.run _ f
  simp only [create, lookUp, enter, Action.run_bind, Action.run_check, Action.run_read]
  cases Validation.username request.username with
  | error v => rfl
  | ok =>
    cases Validation.password request.password with
    | error v => rfl
    | ok =>
      simp only [Except.mapError]
      cases f.store.userNamed? request.username with
      | some u => rfl
      | none =>
        simp only [Option.isSome_none, Bool.false_eq_true, if_false, Action.run_bind,
          Action.run_hash, Action.run_pure]
        cases c.scheme.hash c.config.hashCost c.salt request.password with
        | error fault => rfl
        | ok hash =>
          simp only [Except.mapError, Action.run_call]
          cases f.store.createUser request.username hash request.enabled c.now <;> rfl

theorem run_lookUp_of_free (h : request.Valid)
    (hname : f.store.userNamed? request.username = none) :
    (lookUp request).run f = (.ok (), f) := by
  simp [lookUp, h.username, h.password, hname, Except.mapError]

theorem run_lookUp_of_taken (h : request.Valid) {u : User}
    (hname : f.store.userNamed? request.username = some u) :
    (lookUp request).run f =
      (.error (.conflict s!"Username '{request.username}' is already taken"), f) := by
  simp [lookUp, h.username, h.password, hname, Except.mapError]

/-- With an identifier left and the name free, the account is entered. -/
theorem run_enter_cases (hs : f.store.Sound)
    (hhash : ∃ hash, c.scheme.hash c.config.hashCost c.salt request.password = .ok hash) :
    (∃ user f', (enter c request).run f = (.ok user, f')) ∨
      ∃ failure, (enter c request).run f = (.error failure, f) ∧
        (failure.status = 409 ∧ (∃ v, f.store.userNamed? request.username = some v) ∨
          Table.nextId? f.store.users = none) := by
  obtain ⟨hash, hhash⟩ := hhash
  have hrun : (enter c request).run f =
      (Action.call (Store.createUser request.username hash request.enabled c.now)).run f := by
    rw [enter, Action.run_bind, Action.run_hash, hhash]
    rfl
  rw [hrun, Action.run_call]
  rcases Store.createUser_cases hs request.username hash request.enabled c.now with
    ⟨user, store, hcall⟩ | ⟨htaken, hcall⟩ | ⟨hfull, hcall⟩
  · exact .inl ⟨user, _, by rw [hcall]⟩
  · exact .inr ⟨.store .duplicate, by rw [hcall], .inl ⟨rfl, htaken⟩⟩
  · exact .inr ⟨.store Store.full, by rw [hcall], .inr hfull⟩

theorem createUser_of_run_enter (h : (enter c request).run f = (.ok user, f')) :
    ∃ hash store, f.store.createUser request.username hash request.enabled c.now =
      .ok (user, store) ∧ f' = { f with store } := by
  rw [enter, Action.run_bind, Action.run_hash] at h
  cases hhash : c.scheme.hash c.config.hashCost c.salt request.password with
  | error fault =>
    rw [hhash] at h
    cases h
  | ok hash =>
    rw [hhash] at h
    change (Action.call _).run f = _ at h
    rw [Action.run_call] at h
    split at h
    · rename_i u store hcall
      cases h
      exact ⟨hash, store, hcall, rfl⟩
    · cases h

end Users

/-- Somebody who has asked for an account. -/
structure Applicant where
  moment : Moment
  request : NewUser

/-- What the request of an applicant does if nobody comes in between. -/
def Applicant.action (d : Setup) (a : Applicant) : Action Answer :=
  Users.create (d.context a.moment) a.request

/-- How far a request for an account has come. -/
inductive Progress where
  | arrived
  | admitted
  | entered (user : User)
  | answered (result : Except Failure Answer)

/-- How a result is answered. -/
def responseTo : Except Failure Answer → Response
  | .ok answer => answer.response
  | .error failure => .of failure.status (.json failure.body)

/-- The first account has been given a password. -/
theorem State.Reachable.exists_hash {d : Setup} {s : State} (h : State.Reachable d s) :
    ∃ salt password stored, d.scheme.hash d.config.hashCost salt password = .ok stored := by
  induction h with
  | started h =>
    obtain ⟨m, draws, password, after, link, hroot, -⟩ := h.eq
    rcases Bootstrap.ensureRoot_eq_ok hroot with ⟨u, hu, -⟩ | ⟨-, -, stored, -, hhash, -⟩
    · cases hu
    · exact ⟨_, _, stored, hhash⟩
  | restarted _ _ ih => exact ih
  | next _ _ ih => exact ih

namespace Progress

/-- One step of a request. -/
def turn (c : Context) (request : NewUser) : Progress → State → Progress × State
  | .arrived, s =>
    match (Users.lookUp request).run s.fleet with
    | (.ok (), fleet) => (.admitted, { s with fleet })
    | (.error failure, fleet) => (.answered (.error failure), { s with fleet })
  | .admitted, s =>
    match (Users.enter c request).run s.fleet with
    | (.ok user, fleet) => (.entered user, { s with fleet })
    | (.error failure, fleet) => (.answered (.error failure), { s with fleet })
  | .entered user, s =>
    let answer := Users.entered user
    (.answered (.ok answer),
      { s with registry := (State.announce answer.change s.registry).registry })
  | .answered result, s => (.answered result, s)

def response? : Progress → Option Response
  | .answered result => some (responseTo result)
  | _ => none

/-- The request has not got the account, and it was refused for this reason if it has been
answered. -/
def Beaten (reason : Failure → Prop) : Progress → Prop
  | .arrived | .admitted => True
  | .entered _ | .answered (.ok _) => False
  | .answered (.error failure) => reason failure

variable {c : Context} {request : NewUser} {s : State} {p : Progress} {reason : Failure → Prop}

theorem Beaten.mono {reason' : Failure → Prop} (h : p.Beaten reason)
    (hreason : ∀ failure, reason failure → reason' failure) : p.Beaten reason' := by
  cases p with
  | arrived | admitted => trivial
  | entered user => cases h
  | answered result =>
    cases result with
    | ok answer => cases h
    | error failure => exact hreason failure h

theorem Beaten.exists_failure (h : p.Beaten reason) (hanswered : p.response?.isSome = true) :
    ∃ failure, p = .answered (.error failure) ∧ reason failure := by
  cases p with
  | arrived | admitted => cases hanswered
  | entered user => cases h
  | answered result =>
    cases result with
    | ok answer => cases h
    | error failure => exact ⟨failure, rfl, h⟩

/-- How many steps a request has left at most. -/
def left : Progress → Nat
  | .arrived => 3
  | .admitted => 2
  | .entered _ => 1
  | .answered _ => 0

theorem left_turn (c : Context) (request : NewUser) (p : Progress) (s : State) :
    (p.turn c request s).1.left ≤ p.left - 1 := by
  cases p with
  | arrived =>
    rw [turn]
    rcases (Users.lookUp request).run s.fleet with ⟨failure | _, fleet⟩
    · exact Nat.zero_le _
    · exact Nat.le_refl _
  | admitted =>
    rw [turn]
    rcases (Users.enter c request).run s.fleet with ⟨failure | user, fleet⟩
    · exact Nat.zero_le _
    · exact Nat.le_refl _
  | entered user => exact Nat.le_refl _
  | answered result => exact Nat.le_refl _

theorem isSome_response?_of_left (h : p.left = 0) : p.response?.isSome = true := by
  cases p with
  | arrived | admitted | entered => cases h
  | answered result => rfl

/-- Why a request may be refused that follows the rules. -/
def Refuses (store : Store) (name : String) (failure : Failure) : Prop :=
  failure.status = 409 ∧ (∃ v, store.userNamed? name = some v) ∨ Table.nextId? store.users = none

/-- A request that has not got the account gets it in this step, or it changes nothing. -/
theorem Beaten.turn (h : p.Beaten reason) (hs : s.fleet.store.Sound) (hvalid : request.Valid)
    (hhash : ∃ hash, c.scheme.hash c.config.hashCost c.salt request.password = .ok hash) :
    (∃ user fleet, (Users.enter c request).run s.fleet = (.ok user, fleet) ∧
        p.turn c request s = (.entered user, { s with fleet })) ∨
      ∃ p', p.turn c request s = (p', s) ∧
        p'.Beaten fun failure =>
          reason failure ∨ Refuses s.fleet.store request.username failure := by
  cases p with
  | arrived =>
    refine .inr ?_
    rw [Progress.turn]
    cases hname : s.fleet.store.userNamed? request.username with
    | none =>
      rw [Users.run_lookUp_of_free hvalid hname]
      exact ⟨.admitted, rfl, trivial⟩
    | some v =>
      rw [Users.run_lookUp_of_taken hvalid hname]
      exact ⟨_, rfl, .inr (.inl ⟨rfl, v, hname⟩)⟩
  | admitted =>
    rw [Progress.turn]
    rcases Users.run_enter_cases hs hhash with ⟨user, fleet, hrun⟩ | ⟨failure, hrun, hrefused⟩
    · exact .inl ⟨user, fleet, hrun, by rw [hrun]⟩
    · rw [hrun]
      exact .inr ⟨_, rfl, .inr hrefused⟩
  | entered user => cases h
  | answered result => exact .inr ⟨_, rfl, h.mono fun _ => .inl⟩

end Progress

/-- Those who have asked for accounts, and what they share. -/
structure Contest where
  entries : List (Applicant × Progress)
  state : State

namespace Contest

def applicants (q : Contest) : List Applicant := q.entries.map Prod.fst

/-- All have asked, and nobody has taken a step. -/
def opened (applicants : List Applicant) (s : State) : Contest :=
  ⟨applicants.map fun a => (a, .arrived), s⟩

/-- The request at a place takes its next step. -/
def next (d : Setup) (q : Contest) (n : Nat) : Contest :=
  match q.entries[n]? with
  | some (a, p) =>
    let (p, state) := p.turn (d.context a.moment) a.request q.state
    ⟨q.entries.set n (a, p), state⟩
  | none => q

/-- The requests take their steps in the order of a schedule. -/
def after (d : Setup) (q : Contest) (schedule : List Nat) : Contest := schedule.foldl (next d) q

/-- All requests have been answered. -/
def Done (q : Contest) : Prop := ∀ e ∈ q.entries, e.2.response?.isSome = true

instance (q : Contest) : Decidable q.Done := inferInstanceAs (Decidable (∀ _ ∈ _, _))

variable {d : Setup} {s : State} {q : Contest} {m n : Nat} {a : Applicant} {p : Progress}

theorem next_of_some (h : q.entries[n]? = some (a, p)) :
    q.next d n =
      ⟨q.entries.set n (a, (p.turn (d.context a.moment) a.request q.state).1),
        (p.turn (d.context a.moment) a.request q.state).2⟩ := by
  rw [next, h]

theorem next_of_none (h : q.entries[n]? = none) : q.next d n = q := by
  rw [next, h]

/-- The applicants stay who they are. -/
theorem applicants_next (d : Setup) (q : Contest) (n : Nat) :
    (q.next d n).applicants = q.applicants := by
  cases h : q.entries[n]? with
  | none => rw [next_of_none h]
  | some e =>
    obtain ⟨a, p⟩ := e
    have hsame : q.applicants[n]? = some a := by
      rw [applicants, List.getElem?_map, h]
      rfl
    obtain ⟨hlt, rfl⟩ := List.getElem?_eq_some_iff.mp hsame
    rw [next_of_some h, applicants, List.map_set]
    exact List.set_getElem_self hlt

theorem applicants_after (d : Setup) (q : Contest) (schedule : List Nat) :
    (q.after d schedule).applicants = q.applicants := by
  induction schedule generalizing q with
  | nil => rfl
  | cons n rest ih => exact (ih (q.next d n)).trans (applicants_next d q n)

/-! ## Steps that are left -/

/-- The request whose turn it is has a step less left, and the others have as many as before. -/
theorem left_next {e : Applicant × Progress} (d : Setup) (q : Contest) (n : Nat)
    (he : (q.next d n).entries[m]? = some e) :
    ∃ e', q.entries[m]? = some e' ∧ e.2.left ≤ e'.2.left - if n = m then 1 else 0 := by
  cases hn : q.entries[n]? with
  | none =>
    rw [next_of_none hn] at he
    have hne : n ≠ m := by
      rintro rfl
      rw [hn] at he
      cases he
    exact ⟨e, he, by rw [if_neg hne]; omega⟩
  | some e' =>
    obtain ⟨a, p⟩ := e'
    rw [next_of_some hn] at he
    by_cases hnm : n = m
    · subst hnm
      rw [List.getElem?_set_self (List.getElem?_eq_some_iff.mp hn).1] at he
      cases he
      refine ⟨_, hn, ?_⟩
      rw [if_pos rfl]
      exact Progress.left_turn _ _ _ _
    · rw [List.getElem?_set_ne hnm] at he
      exact ⟨e, he, by rw [if_neg hnm]; omega⟩

theorem left_after {e : Applicant × Progress} (d : Setup) (q : Contest) (schedule : List Nat)
    (he : (q.after d schedule).entries[m]? = some e) :
    ∃ e', q.entries[m]? = some e' ∧ e.2.left ≤ e'.2.left - schedule.count m := by
  induction schedule generalizing q with
  | nil => exact ⟨e, he, Nat.le_refl _⟩
  | cons n rest ih =>
    obtain ⟨e', he', hrest⟩ := ih (q.next d n) he
    obtain ⟨e'', he'', hfirst⟩ := left_next d q n he'
    refine ⟨e'', he'', ?_⟩
    rw [List.count_cons]
    simp only [beq_iff_eq]
    omega

/-- A request that has had three turns is answered. -/
theorem done_of_turns {applicants : List Applicant} {schedule : List Nat}
    (h : ∀ n < applicants.length, 3 ≤ schedule.count n) :
    ((opened applicants s).after d schedule).Done := by
  intro e he
  obtain ⟨n, hn⟩ := List.getElem?_of_mem he
  obtain ⟨e', he', hleft⟩ := left_after d (opened applicants s) schedule hn
  obtain ⟨a, ha, rfl⟩ := List.mem_map.mp (List.mem_of_getElem? he')
  have hlt : n < applicants.length := by
    simpa [opened] using (List.getElem?_eq_some_iff.mp he').1
  have hturns := h n hlt
  refine Progress.isSome_response?_of_left ?_
  change e.2.left ≤ 3 - schedule.count n at hleft
  omega

/-! ## A request by itself -/

/-- A request that nobody comes in between leaves behind what its action does. -/
theorem alone (h : q.entries[n]? = some (a, .arrived)) :
    q.after d [n, n, n] =
      ⟨q.entries.set n (a, .answered ((a.action d).run q.state.fleet).1),
        (q.state.perform (a.action d)).state⟩ := by
  have hlt : n < q.entries.length := (List.getElem?_eq_some_iff.mp h).1
  have hget : ∀ e, (q.entries.set n e)[n]? = some e := fun e => List.getElem?_set_self hlt
  simp only [after, List.foldl_cons, List.foldl_nil, next, h, hget, List.set_set]
  rw [Applicant.action, Users.create_eq, State.perform, Action.run_bind]
  simp only [Progress.turn]
  rcases (Users.lookUp a.request).run q.state.fleet with ⟨failure | _, fleet⟩
  · rfl
  · simp only [Action.run_bind]
    rcases (Users.enter (d.context a.moment) a.request).run fleet with ⟨failure | user, fleet⟩ <;>
      rfl

/-! ## Who gets the account -/

/-- What is known of those who ask for an account of one name. -/
structure Seeks (d : Setup) (name : String) (a : Applicant) : Prop where
  username : a.request.username = name
  valid : a.request.Valid
  hashes : ∃ hash, d.scheme.hash d.config.hashCost a.moment.salt a.request.password = .ok hash

/-- Nobody has entered an account. -/
structure Open (s : State) (q : Contest) : Prop where
  state : q.state = s
  beaten : ∀ e ∈ q.entries, e.2.Beaten fun _ => Table.nextId? s.fleet.store.users = none

/-- The request at a place has entered an account, and tells the watchers in its last
step.  Nobody else has changed anything. -/
structure Won (d : Setup) (s : State) (n : Nat) (a : Applicant) (user : User) (q : Contest) :
    Prop where
  entered : (Users.enter (d.context a.moment) a.request).run s.fleet = (.ok user, q.state.fleet)
  winner : q.entries[n]? = some (a, .entered user) ∧ q.state.registry = s.registry ∨
    q.entries[n]? = some (a, .answered (.ok (Users.entered user))) ∧
      q.state.registry = (s.registry.notify Topic.users.path).registry
  beaten : ∀ m e, m ≠ n → q.entries[m]? = some e →
    e.2.Beaten fun failure =>
      failure.status = 409 ∨ Table.nextId? q.state.fleet.store.users = none

variable {name : String} {user : User}

theorem opened_open (applicants : List Applicant) (s : State) : (opened applicants s).Open s where
  state := rfl
  beaten e he := by
    obtain ⟨a, -, rfl⟩ := List.mem_map.mp he
    trivial

theorem Open.next (h : q.Open s) (hs : s.fleet.store.Sound)
    (hname : s.fleet.store.userNamed? name = none) (hseek : ∀ a ∈ q.applicants, Seeks d name a)
    (n : Nat) : (q.next d n).Open s ∨ ∃ a user, Won d s n a user (q.next d n) := by
  cases hn : q.entries[n]? with
  | none =>
    rw [next_of_none hn]
    exact .inl h
  | some e =>
    obtain ⟨a, p⟩ := e
    have hmem := List.mem_of_getElem? hn
    have hlt := (List.getElem?_eq_some_iff.mp hn).1
    obtain ⟨hrequest, hvalid, hhashes⟩ := hseek a (List.mem_map_of_mem hmem)
    obtain rfl := h.state
    rw [next_of_some hn]
    rcases (h.beaten _ hmem).turn (c := d.context a.moment) hs hvalid hhashes with
      ⟨user, fleet, hrun, hturn⟩ | ⟨p', hturn, hbeaten⟩
    · rw [hturn]
      refine .inr ⟨a, user, hrun, .inl ⟨List.getElem?_set_self hlt, rfl⟩, ?_⟩
      intro m e hm he
      rw [List.getElem?_set_ne hm.symm] at he
      refine (h.beaten e (List.mem_of_getElem? he)).mono fun failure hfull => ?_
      -- The account could not have been entered with no identifier left.
      obtain ⟨hash, store, hcall, -⟩ := Users.createUser_of_run_enter hrun
      obtain ⟨id, hid, -⟩ := Store.createUser_eq_ok hcall
      rw [hid] at hfull
      cases hfull
    · rw [hturn]
      refine .inl ⟨rfl, fun e he => ?_⟩
      rcases List.mem_or_eq_of_mem_set he with hold | rfl
      · exact h.beaten e hold
      · refine hbeaten.mono fun failure hreason => ?_
        rw [Progress.Refuses, hrequest, hname] at hreason
        simpa using hreason

/-- The account that has been entered has the name, and the store is as sound as before. -/
theorem Won.taken (h : Won d s n a user q) (hs : s.fleet.store.Sound) :
    q.state.fleet.store.Sound ∧
      ∃ v, q.state.fleet.store.userNamed? a.request.username = some v := by
  obtain ⟨hash, store, hcall, hfleet⟩ := Users.createUser_of_run_enter h.entered
  rw [hfleet]
  exact ⟨hs.createUser hcall, Store.exists_named_of_createUser hcall⟩

theorem Won.mem (h : Won d s n a user q) : a ∈ q.applicants := by
  rcases h.winner with ⟨hn, -⟩ | ⟨hn, -⟩ <;>
    exact List.mem_map_of_mem (f := Prod.fst) (List.mem_of_getElem? hn)

/-- The winner tells the watchers, once. -/
theorem Won.next_winner (h : Won d s n a user q) : Won d s n a user (q.next d n) := by
  rcases h.winner with ⟨hn, hregistry⟩ | ⟨hn, -⟩
  · have hlt := (List.getElem?_eq_some_iff.mp hn).1
    rw [next_of_some hn]
    refine ⟨h.entered, .inr ⟨List.getElem?_set_self hlt, ?_⟩, fun m e hm he => ?_⟩
    · rw [← hregistry]
      exact Registry.notifyChange_registry (List.mem_singleton_self _)
    · rw [List.getElem?_set_ne hm.symm] at he
      exact h.beaten m e hm he
  · have hanswered : q.next d n = q := by
      obtain ⟨hlt, hget⟩ := List.getElem?_eq_some_iff.mp hn
      rw [next_of_some hn, Progress.turn, ← hget, List.set_getElem_self]
    rwa [hanswered]

/-- Once the account is there, no other request enters one. -/
theorem Won.next (h : Won d s n a user q) (hs : s.fleet.store.Sound)
    (hseek : ∀ a ∈ q.applicants, Seeks d name a) (m : Nat) :
    Won d s n a user (q.next d m) := by
  by_cases hmn : m = n
  · exact hmn ▸ h.next_winner
  cases hm : q.entries[m]? with
  | none => rwa [next_of_none hm]
  | some e =>
    obtain ⟨b, p⟩ := e
    obtain ⟨hsound, v, hv⟩ := h.taken hs
    obtain ⟨hrequest, hvalid, hhashes⟩ := hseek b (List.mem_map_of_mem (List.mem_of_getElem? hm))
    rw [(hseek a h.mem).username, ← hrequest] at hv
    rw [next_of_some hm]
    rcases (h.beaten m _ hmn hm).turn (c := d.context b.moment) hsound hvalid hhashes with
      ⟨user', fleet, hrun, -⟩ | ⟨p', hturn, hbeaten⟩
    · obtain ⟨hash, store, hcall, -⟩ := Users.createUser_of_run_enter hrun
      obtain ⟨-, -, -, hfree, -⟩ := Store.createUser_eq_ok hcall
      rw [hv] at hfree
      cases hfree
    · rw [hturn]
      refine ⟨h.entered, ?_, fun k e hk he => ?_⟩
      · rw [List.getElem?_set_ne hmn]
        exact h.winner
      · by_cases hkm : k = m
        · subst hkm
          rw [List.getElem?_set_self (List.getElem?_eq_some_iff.mp hm).1] at he
          cases he
          exact hbeaten.mono fun failure hreason => hreason.elim id (Or.imp_left And.left)
        · rw [List.getElem?_set_ne (Ne.symm hkm)] at he
          exact h.beaten k e hk he

/-- The run lemma. -/
theorem Won.after (h : Won d s n a user q) (hs : s.fleet.store.Sound)
    (hseek : ∀ a ∈ q.applicants, Seeks d name a) (schedule : List Nat) :
    Won d s n a user (q.after d schedule) := by
  induction schedule generalizing q with
  | nil => exact h
  | cons m rest ih =>
    rw [← applicants_next d q m] at hseek
    exact ih (h.next hs (applicants_next d q m ▸ hseek) m) hseek

theorem Open.after (h : q.Open s) (hs : s.fleet.store.Sound)
    (hname : s.fleet.store.userNamed? name = none)
    (hseek : ∀ a ∈ q.applicants, Seeks d name a) (schedule : List Nat) :
    (q.after d schedule).Open s ∨ ∃ n a user, Won d s n a user (q.after d schedule) := by
  induction schedule generalizing q with
  | nil => exact .inl h
  | cons n rest ih =>
    have hseek' := hseek
    rw [← applicants_next d q n] at hseek'
    rcases h.next hs hname hseek n with hopen | ⟨a, user, hwon⟩
    · exact ih hopen hseek'
    · exact .inr ⟨n, a, user, hwon.after hs hseek' rest⟩

/-! ## What is left behind -/

/-- What there is when all have been answered: the request at the place has created the
account, and nobody else has done anything. -/
structure Settled (d : Setup) (s : State) (name : String) (n : Nat) (user : User) (q : Contest) :
    Prop where
  /-- The state is the one that a single request leaves behind. -/
  serial : ∃ a, q.entries[n]? = some (a, .answered (.ok (Users.entered user))) ∧
    q.state = (s.perform (a.action d)).state
  answers : ∀ m e, q.entries[m]? = some e →
    e.2.response?.map (·.status) = some (if m = n then 201 else 409)
  row : q.state.fleet.store.users.filter (·.username == name) = [user]
  grant : q.state.fleet.store.userGrants.filter (·.holder == user.id) =
    [⟨user.id, Store.userAuthority.id⟩]
  rights : q.state.fleet.store.authoritiesOf user.id = ["ROLE_USER"]
  told : ∀ x, s.registry.Watches .users x →
    s.registry.Queued q.state.registry x.outbox [.update Topic.users.path]
  untold : ∀ x ∈ s.registry.sessions, ¬s.registry.Watches .users x →
    s.registry.Queued q.state.registry x.outbox []

theorem Won.answered (h : Won d s n a user q) (hdone : q.Done) :
    q.entries[n]? = some (a, .answered (.ok (Users.entered user))) ∧
      q.state.registry = (s.registry.notify Topic.users.path).registry := by
  rcases h.winner with ⟨hn, -⟩ | hanswered
  · cases hdone _ (List.mem_of_getElem? hn)
  · exact hanswered

/-- When all have been answered, the state is the one that the action of the winner leaves
behind. -/
theorem Won.state_eq (h : Won d s n a user q) (hname : s.fleet.store.userNamed? name = none)
    (hseek : Seeks d name a) (hdone : q.Done) : q.state = (s.perform (a.action d)).state := by
  have hrun : (a.action d).run s.fleet = (.ok (Users.entered user), q.state.fleet) := by
    rw [Applicant.action, Users.create_eq, Action.run_bind,
      Users.run_lookUp_of_free hseek.valid (hseek.username ▸ hname)]
    show Action.run (_ >>= _) s.fleet = _
    rw [Action.run_bind, h.entered]
    rfl
  have hregistry : (s.registry.notifyChange .users).registry = q.state.registry :=
    (Registry.notifyChange_registry (List.mem_singleton_self _)).trans (h.answered hdone).2.symm
  rw [State.perform_of_ok hrun]
  exact congrArg (State.mk _) hregistry.symm

theorem Won.settled (h : Won d s n a user q) (hs : s.fleet.store.Sound)
    (hregistry : s.registry.Sound) (hname : s.fleet.store.userNamed? name = none)
    (hseek : ∀ a ∈ q.applicants, Seeks d name a)
    (hroom : s.fleet.store.users.length + 1 < Table.capacity) (hdone : q.Done) :
    Settled d s name n user q := by
  obtain ⟨hash, store, hcall, hfleet⟩ := Users.createUser_of_run_enter h.entered
  have hwinner := hseek a h.mem
  obtain ⟨hn, htold⟩ := h.answered hdone
  have hstore : q.state.fleet.store = store := by rw [hfleet]
  rw [hwinner.username] at hcall
  obtain ⟨hrow, hgrant⟩ := hs.rows_of_createUser hcall
  rw [← hstore] at hrow hgrant
  obtain ⟨id, hid⟩ : ∃ id, Table.nextId? q.state.fleet.store.users = some id := by
    refine Table.exists_nextId?_of_length ?_
    rw [hstore, Store.length_of_createUser hcall]
    exact hroom
  exact {
    serial := ⟨a, hn, h.state_eq hname hwinner hdone⟩
    answers := by
      intro m e he
      by_cases hmn : m = n
      · subst hmn
        cases hn.symm.trans he
        rw [if_pos rfl]
        rfl
      · rw [if_neg hmn]
        obtain ⟨b, p⟩ := e
        obtain ⟨failure, rfl, hconflict | hfull⟩ :=
          (h.beaten m _ hmn he).exists_failure (hdone _ (List.mem_of_getElem? he))
        · exact congrArg some hconflict
        · rw [hid] at hfull
          cases hfull
    row := hrow
    grant := hgrant
    rights := by
      rw [hstore]
      exact (hs.createUser_rights hcall).1
    told := by
      intro x hx
      have hqueued := hregistry.queued_notify Topic.users.path hx.registered
      rw [if_pos ⟨hx.subscribed, hx.live⟩] at hqueued
      rwa [htold]
    untold := by
      intro x hx hnot
      have hqueued := hregistry.queued_notify Topic.users.path hx
      rw [if_neg fun hboth => hnot ⟨hx, hboth.1, hboth.2⟩] at hqueued
      rwa [htold] }

/-- Where passwords are hashed alike, those of valid requests can be hashed at all, since
the first account has a password. -/
theorem seeks_of_reachable (hs : State.Reachable d s) (hscheme : d.scheme.Uniform)
    (hrequest : a.request.username = name) (hvalid : a.request.Valid) : Seeks d name a where
  username := hrequest
  valid := hvalid
  hashes := by
    obtain ⟨salt, password, stored, hfirst⟩ := hs.exists_hash
    exact hscheme _ _ _ _ _ _ hfirst

/-- Whatever the state, if any number of valid requests ask for accounts of one name that is
free, and take their steps in whatever order, they are all answered after three turns each.
Then one of them is answered as having created the account and all others are answered as
conflicts.  There is one row of the name and one grant for it, and the watchers of the accounts
are told once. -/
theorem one_created {applicants : List Applicant} (schedule : List Nat)
    (hs : State.Reachable d s) (hscheme : d.scheme.Uniform)
    (hname : s.fleet.store.userNamed? name = none) (hsome : applicants ≠ [])
    (hall : ∀ a ∈ applicants, a.request.username = name ∧ a.request.Valid) :
    let q := (opened applicants s).after d schedule
    q.applicants = applicants ∧
    ((∀ n < applicants.length, 3 ≤ schedule.count n) → q.Done) ∧
    (q.Done →
      (s.fleet.store.users.length + 1 < Table.capacity → ∃ n user, Settled d s name n user q) ∧
      (q.state = s ∨ ∃ a ∈ applicants, q.state = (s.perform (a.action d)).state)) := by
  intro q
  have happlicants : (opened applicants s).applicants = applicants := by
    rw [Contest.applicants, opened, List.map_map]
    exact List.map_id' applicants
  have hseek : ∀ a ∈ applicants, Seeks d name a := fun a ha =>
    seeks_of_reachable hs hscheme (hall a ha).1 (hall a ha).2
  have hafter : q.applicants = applicants := (applicants_after d _ schedule).trans happlicants
  refine ⟨hafter, done_of_turns, fun hdone => ?_⟩
  rcases (opened_open applicants s).after hs.sound hname (happlicants.symm ▸ hseek) schedule with
    hopen | ⟨n, a, user, hwon⟩
  · refine ⟨fun hroom => ?_, .inl hopen.state⟩
    -- Somebody has been answered, so there would have to be no identifier left.
    obtain ⟨id, hid⟩ := Table.exists_nextId?_of_length (Nat.lt_of_succ_lt hroom)
    obtain ⟨a, ha⟩ := List.exists_mem_of_ne_nil applicants hsome
    obtain ⟨e, he, rfl⟩ := List.mem_map.mp (hafter.symm ▸ ha)
    obtain ⟨failure, -, hfull⟩ := (hopen.beaten e he).exists_failure (hdone e he)
    rw [hid] at hfull
    cases hfull
  · rw [← hafter] at hseek
    refine ⟨fun hroom => ⟨n, user, ?_⟩, .inr ⟨a, hafter ▸ hwon.mem, ?_⟩⟩
    · exact hwon.settled hs.sound hs.registry_sound hname hseek hroom hdone
    · exact hwon.state_eq hname (hseek a hwon.mem) hdone

/-- The watcher of the groups watches the accounts as well. -/
def watching : State where
  fleet := State.watched.fleet
  registry := ⟨[⟨"a", [Topic.groups.path, Topic.users.path], 0⟩], [⟨[.ok, .ok], true⟩]⟩

theorem reachable_watching : State.Reachable .plain watching := by
  have hregistry :
      (Socket.step "a" 0 (.text "SUBSCRIBE\n\n/api/user") State.watched.registry).1 =
        watching.registry := by
    rfl
  have hsubscribe :
      State.watched.next .plain (.received "a" (.text "SUBSCRIBE\n\n/api/user")) = watching :=
    congrArg (State.mk State.watched.fleet) hregistry
  exact hsubscribe ▸ State.reachable_watched.next _

def rivals : List Applicant :=
  [⟨.epoch, ⟨"alice", "first", true⟩⟩, ⟨.later, ⟨"alice", "second", true⟩⟩]

/-- Both rivals find the name free.  The second one enters the account, so the first one is
refused, and the watcher is told once. -/
theorem rivals_created :
    let q := (opened rivals watching).after .plain [0, 1, 1, 0, 1, 0]
    q.entries.map (·.2.response?.map (·.status)) = [some 409, some 201] ∧
      (∃ n user, Settled .plain watching "alice" n user q) ∧
      watching.registry.Queued q.state.registry 0 [.update Topic.users.path] := by
  intro q
  have hall : ∀ a ∈ rivals, a.request.username = "alice" ∧ a.request.Valid := by
    intro a ha
    rcases List.mem_cons.mp ha with rfl | ha
    · exact ⟨rfl, by decide, by decide⟩
    · cases List.mem_singleton.mp ha
      exact ⟨rfl, by decide, by decide⟩
  obtain ⟨-, hturns, hsettles⟩ := one_created (d := .plain) [0, 1, 1, 0, 1, 0] reachable_watching
    (fun _ _ _ _ password _ _ => ⟨password, rfl⟩) (by decide) (List.cons_ne_nil _ _) hall
  obtain ⟨n, user, hsettled⟩ := (hsettles (hturns (by decide))).1 (by decide)
  refine ⟨by decide, ⟨n, user, hsettled⟩, ?_⟩
  exact hsettled.told ⟨"a", [Topic.groups.path, Topic.users.path], 0⟩
    ⟨List.mem_singleton_self _, by decide, rfl⟩

end Contest

end Service
end BotFleet
