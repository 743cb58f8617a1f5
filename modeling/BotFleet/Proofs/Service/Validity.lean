import BotFleet.Proofs.Password.Stored
import BotFleet.Proofs.Service.Orphan
import BotFleet.Proofs.Service.Restart

/-
What every stored row satisfies.

Rows come about in a few ways only: a request adds or alters one, and a start adds the
first account.  Requests are checked before anything is written, each field that is
given by the rule for it, and an edit that leaves a field out leaves a value behind that
was checked before.  The first account has a name that no rule objects to.  A password
is never stored but as its hash, and since a stored hash can always be read, the only
answers to a login are a token and the one refusal.
-/

namespace BotFleet

theorem Settings.validate_eq_ok_iff {s : Settings} :
    s.validate = .ok () ↔ Validation.name "name" s.name = .ok () ∧
      Validation.name "host" s.host = .ok () ∧ 1 ≤ s.port.val := by
  have hport := s.port.property
  unfold validate
  cases Validation.name "name" s.name with
  | error v => simp [bind, Except.bind]
  | ok =>
    cases Validation.name "host" s.host with
    | error v => simp [bind, Except.bind]
    | ok =>
      simp only [bind, Except.bind, true_and]
      split
      · simp only [reduceCtorEq, false_iff]
        omega
      · simp only [true_iff]
        omega

/-! ## Rows -/

/-- The name of the account passes for one, and what is stored of the password is a hash. -/
structure User.Valid (u : User) : Prop where
  username : Validation.username u.username = .ok ()
  password : Password.IsHash u.password

namespace Table

variable {α : Type} [Row α] {p : α → Prop} {rows : List α}

theorem forall_insert {row : α} (hrow : p row) (h : ∀ r ∈ rows, p r) :
    ∀ r ∈ insert row rows, p r := by
  intro r hr
  rcases mem_insert.mp hr with rfl | hr
  · exact hrow
  · exact h r hr

theorem forall_update {id : Id} {change : α → α} (hchange : ∀ r ∈ rows, p (change r))
    (h : ∀ r ∈ rows, p r) : ∀ r ∈ update id change rows, p r := by
  intro r hr
  obtain ⟨old, hold, rfl⟩ := List.mem_map.mp hr
  split
  · exact hchange old hold
  · exact h old hold

theorem forall_erase {id : Id} (h : ∀ r ∈ rows, p r) : ∀ r ∈ erase id rows, p r :=
  fun r hr => h r (mem_erase.mp hr).1

end Table

/-- Every row keeps the rules for what is stored in it. -/
structure Store.Valid (s : Store) : Prop where
  users : ∀ u ∈ s.users, u.Valid
  groups : ∀ g ∈ s.groups, Validation.name "name" g.name = .ok ()
  instances : ∀ i ∈ s.instances, i.settings.validate = .ok ()

theorem Store.Valid.fresh : Store.fresh.Valid where
  users _ hu := absurd hu List.not_mem_nil
  groups _ hg := absurd hg List.not_mem_nil
  instances _ hi := absurd hi List.not_mem_nil

/-- A start leaves valid rows valid, if what it may hash is stored as a hash. -/
theorem Store.Valid.ensureRoot {cost : Cost} {now : Instant} {chance : Bootstrap.Chance}
    {s s' : Store} {password : Option String} (h : s.Valid) (hsalt : chance.salt.length = 16)
    (hc : Bootstrap.ensureRoot .blowfish cost now chance s = .ok (password, s')) : s'.Valid := by
  rcases Bootstrap.ensureRoot_eq_ok hc with ⟨u, -, -, rfl⟩ | ⟨-, -, hash, u, hhash, hcall⟩
  · exact h
  · obtain ⟨-, -, -, -, rfl⟩ := Store.addUser_eq_ok_iff.mp hcall
    have hname : Validation.username Bootstrap.rootName = .ok () := by rfl
    exact { h with
      users := Table.forall_insert ⟨hname, Password.isHash_of_hash hsalt hhash⟩ h.users }

namespace Service

open Http (Request)
open Json (Message)

/-- An operation that succeeds leaves valid rows behind. -/
theorem Effect.valid {c : Context} {sender : Sender} {f f' : Fleet} {op : Operation} {a : Answer}
    (h : Effect c sender f op a f')
    (hhashes : ∀ password hash, c.scheme.hash c.config.hashCost c.salt password = .ok hash →
      Password.IsHash hash)
    (hf : f.store.Valid) : f'.store.Valid := by
  cases h with
  | createUser hname _ _ hhash hcall =>
    obtain ⟨id, -, -, -, -, rfl, rfl⟩ := Store.createUser_eq_ok hcall
    exact { hf with users := Table.forall_insert ⟨hname, hhashes _ _ hhash⟩ hf.users }
  | @editUser id request hash _ _ hname hhash hcall =>
    obtain ⟨_, -, -, -, rfl⟩ := Store.updateUser_eq_ok_some hcall
    refine { hf with users := Table.forall_update (fun u hu => ⟨?_, ?_⟩) hf.users }
    · -- What the request leaves out has been checked before.
      show Validation.username (request.username.getD u.username) = .ok ()
      cases hrequest : request.username with
      | none => exact (hf.users u hu).username
      | some name => exact hname name hrequest
    · show Password.IsHash (hash.getD u.password)
      generalize request.password = password at hhash
      cases hhash with
      | none => exact (hf.users u hu).password
      | some _ hhash => exact hhashes _ _ hhash
  | deleteUser => exact { hf with users := Table.forall_erase hf.users }
  | grantUser hcall =>
    obtain ⟨-, -, rfl⟩ := Store.grantUser_eq_ok hcall
    exact { hf with }
  | createGroup hname hcall =>
    obtain ⟨_, -, -, -, rfl, rfl⟩ := Store.createGroup_eq_ok hcall
    exact { hf with groups := Table.forall_insert hname hf.groups }
  | renameGroup hname hcall =>
    obtain ⟨_, -, -, -, rfl⟩ := Store.renameGroup_eq_ok_some hcall
    exact { hf with groups := Table.forall_update (fun _ _ => hname) hf.groups }
  | deleteGroup => exact { hf with groups := Table.forall_erase hf.groups }
  | addMember hcall | stayMember hcall =>
    obtain ⟨-, -, -, rfl⟩ := Store.addMember_eq_ok hcall
    exact { hf with }
  | grantGroup hcall =>
    obtain ⟨-, -, rfl⟩ := Store.grantGroup_eq_ok hcall
    exact { hf with }
  | createInstance hvalid hcall =>
    obtain ⟨_, -, -, rfl, rfl⟩ := Store.createInstance_eq_ok hcall
    exact { hf with instances := Table.forall_insert hvalid hf.instances }
  | editInstance hvalid hcall =>
    obtain ⟨_, -, -, rfl⟩ := Store.updateInstance_eq_some hcall
    exact { hf with instances := Table.forall_update (fun _ _ => hvalid) hf.instances }
  | deleteInstance | dropInstance =>
    exact { hf with instances := Table.forall_erase hf.instances }
  | revokeUser | removeMember | revokeGroup => exact { hf with }
  | showMe | listUsers | showUser | listGroups | showGroup | listInstances | showInstance
  | startInstance | keepStarted | stopInstance | keepStopped | listAuthorities => exact hf

/-! ## Runs -/

/-- The default settings, with passwords stored as their Blowfish hashes. -/
def Setup.blowfish : Setup := ⟨.default, .blowfish⟩

theorem Users.run_create {c : Context} {f : Fleet} {request : NewUser} {hash : String} {u : User}
    {store : Store} (hname : Validation.username request.username = .ok ())
    (hpassword : Validation.password request.password = .ok ())
    (hhash : c.scheme.hash c.config.hashCost c.salt request.password = .ok hash)
    (hcall : f.store.createUser request.username hash request.enabled c.now = .ok (u, store)) :
    (Users.create c request).run f =
      (.ok (.created (Message.toJson u) .users), { f with store }) := by
  obtain ⟨id, -, -, hfree, -, -, -⟩ := Store.createUser_eq_ok hcall
  rw [Users.create, Action.run_check_bind_of_ok hname, Action.run_check_bind_of_ok hpassword,
    Action.run_bind, Action.run_read, hfree]
  show (Action.hash c request.password >>= _).run f = _
  simp only [Action.run_bind, Action.run_hash, hhash, Except.mapError, Action.run_call, hcall]
  rfl

namespace State

variable {d : Setup} {s : State} {c : Context} {r : Request}

/-- A run leads to the state on which every hash is made with sixteen bytes of salt. -/
inductive Salted (d : Setup) : State → Prop
  | started {s : State} {m : Moment} {draws : List Nat} {link : Daemon.Link}
    (hsalt : m.salt.length = 16)
    (h : (Startup.run (d.context m) draws (fun _ => .ok .fresh) link).state = .ok s) : Salted d s
  | restarted {s s' : State} {m : Moment} {draws : List Nat} {link : Daemon.Link}
    (hs : Salted d s) (hsalt : m.salt.length = 16)
    (h : (Startup.run (d.context m) draws (fun _ => .ok s.fleet.store) link).state = .ok s') :
    Salted d s'
  | next {s : State} {e : Event} (hs : Salted d s)
    (hsalt : ∀ m r, e = .request m r → m.salt.length = 16) : Salted d (s.next d e)

theorem Salted.reachable (h : Salted d s) : Reachable d s := by
  induction h with
  | started _ h => exact .started ⟨_, _, _, h⟩
  | restarted _ _ h ih => exact .restarted ih ⟨_, _, _, h⟩
  | next _ _ ih => exact ih.next _

theorem next_valid {e : Event} (hscheme : d.scheme = .blowfish) (hs : s.fleet.store.Sound)
    (hsalt : ∀ m r, e = .request m r → m.salt.length = 16) (hvalid : s.fleet.store.Valid) :
    (s.next d e).fleet.store.Valid := by
  rcases next_fleet d hs e with ⟨m, r, sender, op, a, rfl, -, heffect, -⟩ | halike
  · refine heffect.valid (fun password hash hhash => ?_) hvalid
    have hhash : d.scheme.hash d.config.hashCost m.salt password = .ok hash := hhash
    rw [hscheme] at hhash
    exact Password.isHash_of_hash (hsalt m r rfl) hhash
  · rw [halike.store]
    exact hvalid

theorem Salted.valid (hscheme : d.scheme = .blowfish) (h : Salted d s) :
    s.fleet.store.Valid := by
  induction h with
  | started hsalt h =>
    obtain ⟨password, after, link, hroot, rfl⟩ := eq_of_run h
    rw [hscheme] at hroot
    exact Store.Valid.fresh.ensureRoot hsalt hroot
  | restarted _ hsalt h ih =>
    obtain ⟨password, after, link, hroot, rfl⟩ := eq_of_run h
    rw [hscheme] at hroot
    exact ih.ensureRoot hsalt hroot
  | next hs hsalt ih => exact next_valid hscheme hs.reachable.sound hsalt ih

/-! ## Logging in -/

/-- Among valid rows a login finds an account that it opens or is refused. -/
theorem open?_of_valid (hscheme : c.scheme = .blowfish) (hvalid : s.fleet.store.Valid)
    (login : BotFleet.Login) :
    (∃ u, Login.open? c s.fleet.store login = .ok u) ∨
      Login.open? c s.fleet.store login = .error Login.refused := by
  rw [Login.open?]
  cases hu : (s.fleet.store.userNamed? login.username).filter (·.enabled) with
  | none => exact .inr rfl
  | some u =>
    obtain ⟨hfind, -⟩ := Option.filter_eq_some_iff.mp hu
    obtain ⟨hmem, -⟩ := Store.mem_of_userNamed? hfind
    obtain ⟨belongs, hverify⟩ := (hvalid.users u hmem).password.exists_verify login.password
    have hverify : c.scheme.verify login.password u.password = .ok belongs := by
      rw [hscheme]
      exact hverify
    simp only [hverify]
    cases belongs
    · exact .inr rfl
    · exact .inl ⟨u, rfl⟩

/-- Credentials that open no account are refused in one way. -/
theorem serveLogin_of_refused {login : BotFleet.Login} (hverb : r.verb = .post)
    (hbody : bodyOf BotFleet.Login r = .ok login)
    (hopen : Login.open? c s.fleet.store login = .error Login.refused) :
    s.serveLogin c r = fail Login.refused s := by
  have hrun : (Login.perform c login).run s.fleet = (.error Login.refused, s.fleet) := by
    rw [Login.run_perform, hopen]
    rfl
  have hallowed : r.verb ∈ Route.login.allowed := by
    rw [hverb]
    decide
  rw [serveLogin, if_pos hallowed, hbody]
  dsimp only
  rw [perform_of_error hrun]

/-- Every stored row keeps the rules for it, whatever has happened.  A well-formed login is
therefore answered with success or with the one refusal, and it changes nothing. -/
theorem rows_valid_and_login_sound {config : Config} (hs : Salted ⟨config, .blowfish⟩ s) :
    (∀ u ∈ s.fleet.store.users,
      Validation.username u.username = .ok () ∧ Password.IsHash u.password) ∧
    (∀ g ∈ s.fleet.store.groups, Validation.name "name" g.name = .ok ()) ∧
    (∀ i ∈ s.fleet.store.instances,
      Validation.name "name" i.settings.name = .ok () ∧
        Validation.name "host" i.settings.host = .ok () ∧
        1 ≤ i.settings.port.val ∧ i.settings.port.val ≤ 65535) ∧
    ∀ (m : Moment) (r : Request) (login : BotFleet.Login), r.verb = .post →
      r.path = "/api/auth/login" → bodyOf BotFleet.Login r = .ok login →
      let served := s.serve ((Setup.mk config .blowfish).context m) r
      (served.response.status = 200 ∨
        served.response.status = 401 ∧
          served.response.content = .json Login.refused.body) ∧
        served.state = s := by
  have hvalid : s.fleet.store.Valid := hs.valid rfl
  refine ⟨fun u hu => ⟨(hvalid.users u hu).username, (hvalid.users u hu).password⟩,
    hvalid.groups, fun i hi => ?_, fun m r login hverb hpath hbody => ?_⟩
  · obtain ⟨hname, hhost, hport⟩ := Settings.validate_eq_ok_iff.mp (hvalid.instances i hi)
    exact ⟨hname, hhost, hport, i.settings.port.property.2⟩
  · have hoptions : r.verb ≠ .options := by
      rw [hverb]
      decide
    have hhead : ¬r.verb = .head := by
      rw [hverb]
      decide
    dsimp only
    rw [serve_of_login hoptions hpath, finish, if_neg hhead]
    refine ⟨?_, serveLogin_state⟩
    have hscheme : ((Setup.mk config .blowfish).context m).scheme = .blowfish := rfl
    rcases open?_of_valid hscheme hvalid login with ⟨u, hopen⟩ | hopen
    · rw [serveLogin_of_open hverb hbody hopen]
      exact .inl rfl
    · rw [serveLogin_of_refused hverb hbody hopen]
      exact .inr ⟨rfl, rfl⟩

/-! ## A state with rows of every kind -/

/-- The moment at which there are sixteen bytes of salt. -/
def saltedEpoch : Moment := { Moment.epoch with salt := List.replicate 16 0 }

/-- The state after a first start, if this is what has been stored of the password. -/
def founded (rootHash : String) : State where
  fleet := {
    store := { Store.fresh with
      users := [⟨.zero, "root", true, rootHash, ⟨0, 0⟩⟩]
      userGrants := [⟨.zero, .zero⟩] }
    control := (first .refused).fleet.control }
  registry := .empty

/-- The state once there are another account, a group and an instance as well. -/
def peopled (rootHash aliceHash : String) : State where
  fleet := {
    store := { Store.fresh with
      users := (founded rootHash).fleet.store.users ++ [{ alice with password := aliceHash }]
      userGrants := [⟨.zero, .zero⟩, ⟨alice.id, Store.userAuthority.id⟩]
      groups := [⟨Table.firstId, "team"⟩]
      instances := [⟨Table.firstId, radio⟩] }
    control := (first .refused).fleet.control }
  registry := .empty

theorem salted_founded {rootHash : String}
    (hhash : Password.Scheme.blowfish.hash Config.default.hashCost saltedEpoch.salt
      (Bootstrap.passwordOf ⟨[], saltedEpoch.salt⟩) = .ok rootHash) :
    Salted .blowfish (founded rootHash) := by
  let chance : Bootstrap.Chance := ⟨[], saltedEpoch.salt⟩
  let root := (some (Bootstrap.passwordOf chance), (founded rootHash).fleet.store)
  have hensure : Bootstrap.ensureRoot .blowfish Config.default.hashCost ⟨0, 0⟩ chance .fresh =
      .ok root :=
    (Bootstrap.ensureRoot_of_none rfl hhash).trans rfl
  have hprepare : Startup.prepare (Setup.blowfish.context saltedEpoch) []
      (fun _ => .ok .fresh) = .ok root := by
    have hlocate : Startup.locate (Setup.blowfish.context saltedEpoch).config = _ := locate_plain
    rw [Startup.prepare, hlocate]
    exact hensure
  have horigin : Startup.checkOrigin Config.default.corsOrigin = .ok () := rfl
  have hstart : (Startup.run (Setup.blowfish.context saltedEpoch) [] (fun _ => .ok .fresh)
      ⟨"", [], .refused, []⟩).state = .ok (founded rootHash) :=
    run_of_prepare hprepare horigin
  exact .started rfl hstart

/-- The first account creates the other one, the group and the instance. -/
theorem salted_peopled {rootHash aliceHash : String} (hs : Salted .blowfish (founded rootHash))
    (hhash : Password.Scheme.blowfish.hash Config.default.hashCost saltedEpoch.salt
      "password1" = .ok aliceHash) :
    Salted .blowfish (peopled rootHash aliceHash) := by
  let c := Setup.blowfish.context saltedEpoch
  let newAccount := posting "/api/user" (NewUser.mk "alice" "password1" true)
  let newGroup := posting "/api/group" (GroupRequest.mk "team")
  let newInstance := posting "/api/instance" radio
  let rows : Store := (peopled rootHash aliceHash).fleet.store
  let having (store : Store) : State := ⟨⟨store, (first .refused).fleet.control⟩, .empty⟩
  have hcreate : (Users.create c ⟨"alice", "password1", true⟩).run (founded rootHash).fleet =
      (.ok (.created (Message.toJson { alice with password := aliceHash }) .users),
        (having { rows with groups := [], instances := [] }).fleet) :=
    Users.run_create rfl rfl hhash rfl
  have haccount : (founded rootHash).next .blowfish (.request saltedEpoch (byRoot c newAccount)) =
      having { rows with groups := [], instances := [] } := by
    have hop : operation? newAccount = some (.createUser ⟨"alice", "password1", true⟩) :=
      operation?_withBody rfl rfl ⟨by decide, trivial, trivial, trivial, trivial⟩ (by decide)
    rw [next_byRoot rfl hop, Operation.perform, perform_of_ok hcreate]
    rfl
  have hgroup : (having { rows with groups := [], instances := [] }).next .blowfish
      (.request saltedEpoch (byRoot c newGroup)) = having { rows with instances := [] } := by
    have hop : operation? newGroup = some (.createGroup ⟨"team"⟩) :=
      operation?_withBody rfl rfl ⟨by decide, trivial, trivial⟩ (by decide)
    exact (next_byRoot rfl hop).trans rfl
  have hinstance : (having { rows with instances := [] }).next .blowfish
      (.request saltedEpoch (byRoot c newInstance)) = peopled rootHash aliceHash := by
    have hport : Json.FitsWord radio.port.val := ⟨by decide, by decide⟩
    have hop : operation? newInstance = some (.createInstance radio) :=
      operation?_withBody rfl rfl
        ⟨by decide, trivial, trivial, hport, trivial, trivial, trivial, trivial, trivial⟩
        (by decide)
    exact (next_byRoot rfl hop).trans rfl
  have hsalt (r : Request) : ∀ m r', Event.request saltedEpoch r = .request m r' →
      m.salt.length = 16 := by
    rintro _ _ ⟨⟩
    rfl
  rw [← hinstance, ← hgroup, ← haccount]
  exact ((hs.next (hsalt _)).next (hsalt _)).next (hsalt _)

/-- Rows of every kind have been created, and all of them are valid.  A login with a password other
than the one that was set is answered in one of the two ways, and nothing is changed. -/
theorem peopled_rows_valid :
    let c := Setup.blowfish.context saltedEpoch
    ∃ rootHash aliceHash, c.scheme.hash c.config.hashCost c.salt "password1" = .ok aliceHash ∧
      let s := peopled rootHash aliceHash
      Salted .blowfish s ∧
      Password.IsHash rootHash ∧ Password.IsHash aliceHash ∧
      Validation.name "name" "team" = .ok () ∧ Validation.name "host" radio.host = .ok () ∧
      let served := s.serve c (posting "/api/auth/login" (BotFleet.Login.mk "alice" "password2"))
      (served.response.status = 200 ∨ served.response.status = 401 ∧
        served.response.content = .json Login.refused.body) ∧ served.state = s := by
  intro c
  have hcost : Password.isCost c.config.hashCost = true := by decide
  obtain ⟨rootHash, hroot⟩ :=
    Password.exists_hash hcost c.salt (Bootstrap.passwordOf ⟨[], c.salt⟩)
  obtain ⟨aliceHash, halice⟩ := Password.exists_hash hcost c.salt "password1"
  have hs : Salted .blowfish (peopled rootHash aliceHash) :=
    salted_peopled (salted_founded hroot) halice
  obtain ⟨husers, hgroups, hinstances, hlogin⟩ := rows_valid_and_login_sound hs
  have hbody : bodyOf BotFleet.Login
      (posting "/api/auth/login" (BotFleet.Login.mk "alice" "password2")) =
      .ok ⟨"alice", "password2"⟩ :=
    bodyOf_posting ⟨by decide, trivial, trivial, trivial⟩ (by decide)
  exact ⟨rootHash, aliceHash, halice, hs, (husers _ List.mem_cons_self).2,
    (husers _ (List.mem_cons_of_mem _ List.mem_cons_self)).2, hgroups _ List.mem_cons_self,
    (hinstances _ List.mem_cons_self).2.1, hlogin saltedEpoch _ _ rfl rfl hbody⟩

end State
end Service
end BotFleet
