import BotFleet.Proofs.Service.Gate
import BotFleet.Proofs.Service.Lineage

/-
What the token of a login is good for.

A token names an account by its identifier and nothing else, and identifiers are
given out again.  So whoever carries it passes as the account that has the
identifier by then, if it is enabled, with the authorities from the time of the login.
That is the account that logged in for as long as this one is kept.  Once it has been
deleted, it is any account that was created in its place.
-/

namespace BotFleet

theorem Http.Rejection.status_ne (rejection : Rejection) : rejection.status ≠ 200 := by
  have := rejection.le_status
  omega

namespace Service

open Http (Request)
open Json (Message)

namespace Login

variable {c : Context} {store : Store} {login : BotFleet.Login} {user : User}

theorem open?_eq_ok (h : open? c store login = .ok user) :
    user ∈ store.users ∧ user.enabled = true := by
  unfold open? at h
  split at h
  · cases h
  rename_i found hfound
  obtain ⟨hfind, henabled⟩ := Option.filter_eq_some_iff.mp hfound
  split at h
  · cases h
  · cases h
    exact ⟨(Store.mem_of_userNamed? hfind).1, henabled⟩
  · cases h

theorem status_of_open?_error {failure : Failure} (h : open? c store login = .error failure) :
    failure.status ≠ 200 := by
  unfold open? at h
  split at h
  · cases h
    decide
  · split at h
    · cases h
      simp [Failure.status]
    · cases h
    · cases h
      decide

end Login

namespace State

variable {c : Context} {d : Setup} {s : State} {r : Request}

theorem serve_of_login (hverb : r.verb ≠ .options) (hpath : r.path = "/api/auth/login") :
    s.serve c r = finish c r (s.serveLogin c r) := by
  have hroute : Route.ofPath? r.path = some .login := by
    rw [hpath]
    rfl
  rw [serve, if_neg hverb]
  show finish c r (s.serveRoute c r) = _
  rw [serveRoute, hroute]

/-- The credentials of an account are answered with a token of that account. -/
theorem serveLogin_of_open {login : BotFleet.Login} {u : User} (hverb : r.verb = .post)
    (hbody : bodyOf BotFleet.Login r = .ok login)
    (hopen : Login.open? c s.fleet.store login = .ok u) :
    s.serveLogin c r =
      ⟨.of 200 (.json (Message.toJson (Login.welcome c s.fleet.store u))), s, []⟩ := by
  have hrun : (Login.perform c login).run s.fleet =
      (.ok (.shown (Message.toJson (Login.welcome c s.fleet.store u))), s.fleet) := by
    rw [Login.run_perform, hopen]
    rfl
  have hallowed : r.verb ∈ Route.login.allowed := by
    rw [hverb]
    decide
  rw [serveLogin, if_pos hallowed, hbody]
  dsimp only
  rw [perform_of_ok hrun]
  rfl

/-- Nothing but the credentials of an account is answered with success. -/
theorem open_of_serveLogin (hstatus : (s.serveLogin c r).response.status = 200) :
    r.verb = .post ∧ ∃ login u, bodyOf BotFleet.Login r = .ok login ∧
      Login.open? c s.fleet.store login = .ok u := by
  rw [serveLogin] at hstatus
  by_cases hallowed : r.verb ∈ Route.login.allowed
  · rw [if_pos hallowed] at hstatus
    refine ⟨List.mem_singleton.mp hallowed, ?_⟩
    cases hbody : bodyOf BotFleet.Login r with
    | error rejection =>
      rw [hbody] at hstatus
      exact absurd hstatus rejection.status_ne
    | ok login =>
      rw [hbody] at hstatus
      dsimp only at hstatus
      cases hopen : Login.open? c s.fleet.store login with
      | error failure =>
        have hrun : (Login.perform c login).run s.fleet = (.error failure, s.fleet) := by
          rw [Login.run_perform, hopen]
          rfl
        rw [perform_of_error hrun] at hstatus
        exact absurd hstatus (Login.status_of_open?_error hopen)
      | ok u => exact ⟨login, u, rfl, hopen⟩
  · rw [if_neg hallowed] at hstatus
    cases hstatus

/-! ## Who carries an issued token -/

/-- The token of an account is good for whatever account has its identifier, until it
is too old. -/
theorem identify_issued {m m' : Moment} {store : Store} {id : Id} {username : String}
    {authorities : List String} {headers : List Http.Header} {target : Http.Target}
    (hs : store.Sound)
    (htoken : Http.Credentials.token? headers target =
      some (Token.issue d.config.secret d.config.tokenHours (d.context m).seconds id username
        authorities))
    (sender : Sender) :
    Sender.identify (d.context m') store headers target = .ok sender ↔
      (d.context m').seconds.val - Token.leeway ≤
          (Token.expiry (d.context m).seconds d.config.tokenHours).val ∧
        ∃ v ∈ store.users, v.id = id ∧ v.enabled = true ∧
          sender = ⟨id, v.username, authorities⟩ := by
  let claims := Token.claimsFor d.config.tokenHours (d.context m).seconds id username authorities
  have hverify : Token.verify (d.context m').config.secret (d.context m').seconds
      (Token.issue d.config.secret d.config.tokenHours (d.context m).seconds id username
        authorities) =
      if (Token.expiry (d.context m).seconds d.config.tokenHours).val <
          (d.context m').seconds.val - Token.leeway then .error .expired
      else .ok claims :=
    Token.verify_encode _ _ _
  have hclaims : claims.userId? = some id := Token.userId?_claimsFor _ _ _ _ _
  rw [Sender.identify, htoken]
  dsimp only
  rw [Sender.ofToken_eq_ok_iff]
  constructor
  · rintro ⟨found, id', user, hok, hid, huser, henabled, rfl⟩
    rw [hverify] at hok
    split at hok
    · cases hok
    · rename_i hfresh
      cases hok
      rw [hclaims] at hid
      cases hid
      obtain ⟨hmem, hkey⟩ := (Table.find?_eq_some_iff hs.users).mp huser
      have huid : user.id = id := hkey
      exact ⟨by omega, user, hmem, huid, henabled, by rw [huid]; rfl⟩
  · rintro ⟨hfresh, v, hv, rfl, henabled, rfl⟩
    exact ⟨claims, v.id, v, hverify.trans (if_neg (Int.not_lt.mpr hfresh)), hclaims,
      (Table.find?_eq_some_iff hs.users).mpr ⟨hv, rfl⟩, henabled, rfl⟩

/-! ## An account in the place of another -/

def alice : User := ⟨Table.firstId, "alice", true, "password1", ⟨0, 0⟩⟩

def bob : User := ⟨Table.firstId, "bob", true, "password2", ⟨1, 0⟩⟩

/-- The state in which there is one account besides the first one. -/
def having (u : User) : State where
  fleet := {
    store := { firstStore with
      users := firstStore.users ++ [u]
      userGrants := firstStore.userGrants ++ [⟨u.id, Store.userAuthority.id⟩] }
    control := (first .refused).fleet.control }
  registry := .empty

def createAlice : Request :=
  byRoot (Setup.plain.context .epoch) (posting "/api/user" (NewUser.mk "alice" "password1" true))

def loginAlice : Request := posting "/api/auth/login" (BotFleet.Login.mk "alice" "password1")

def deleteAlice : Request := byRoot (Setup.plain.context .later) (bare .delete "/api/user/1")

def createBob : Request :=
  byRoot (Setup.plain.context .later) (posting "/api/user" (NewUser.mk "bob" "password2" true))

theorem reachable_alice : Reachable .plain (having alice) := by
  have hop : operation? (posting "/api/user" (NewUser.mk "alice" "password1" true)) =
      some (.createUser ⟨"alice", "password1", true⟩) :=
    operation?_withBody rfl rfl ⟨by decide, trivial, trivial, trivial, trivial⟩ (by decide)
  have hcreate : (first .refused).next .plain (.request .epoch createAlice) = having alice :=
    (next_byRoot rfl hop).trans rfl
  rw [← hcreate]
  exact (reachable_first .refused).next _

/-- The first account deletes one account and creates another. -/
def replacement : List Event := [.request .later deleteAlice, .request .later createBob]

theorem next_deleteAlice :
    (having alice).next .plain (.request .later deleteAlice) = first .refused := by
  have hroute : Route.ofPath? "/api/user/1" = some (.resource (.user "1")) := rfl
  have hop : operation? (bare .delete "/api/user/1") = some (.deleteUser Table.firstId) :=
    operation?_withId (by decide) hroute rfl
  exact (next_byRoot rfl hop).trans rfl

theorem after_replacement : (having alice).after .plain replacement = having bob := by
  have hop : operation? (posting "/api/user" (NewUser.mk "bob" "password2" true)) =
      some (.createUser ⟨"bob", "password2", true⟩) :=
    operation?_withBody rfl rfl ⟨by decide, trivial, trivial, trivial, trivial⟩ (by decide)
  have hcreate : (first .refused).next .plain (.request .later createBob) = having bob :=
    (next_byRoot rfl hop).trans rfl
  rw [after, replacement, List.foldl_cons, next_deleteAlice, List.foldl_cons, hcreate]
  rfl

theorem serveLogin_alice :
    (having alice).serveLogin (Setup.plain.context .epoch) loginAlice =
      ⟨.of 200 (.json (Message.toJson
        (Login.welcome (Setup.plain.context .epoch) (having alice).fleet.store alice))),
        having alice, []⟩ := by
  have hbody : bodyOf BotFleet.Login loginAlice = .ok ⟨"alice", "password1"⟩ :=
    bodyOf_posting ⟨by decide, trivial, trivial, trivial⟩ (by decide)
  exact serveLogin_of_open rfl hbody rfl

/-- Whoever carries the token of a login passes as the account that has the identifier
by then.  It is the one that logged in if that one has been kept, and otherwise one
that was created after that one was gone. -/
theorem login_token_passes {m : Moment} (hs : Reachable d s) (hverb : r.verb ≠ .options)
    (hpath : r.path = "/api/auth/login")
    (hstatus : (s.serve (d.context m) r).response.status = 200) :
    ∃ u ∈ s.fleet.store.users, ∃ token,
      (s.serve (d.context m) r).response.content =
        .json (Message.toJson (Welcome.mk token (s.fleet.store.profile u))) ∧
      ∀ events m' headers target, Http.Credentials.token? headers target = some token →
        let s₁ := s.next d (.request m r)
        let s₂ := s₁.after d events
        (∀ sender, Sender.identify (d.context m') s₂.fleet.store headers target = .ok sender ↔
          (d.context m').seconds.val - Token.leeway ≤
              (Token.expiry (d.context m).seconds d.config.tokenHours).val ∧
            ∃ v ∈ s₂.fleet.store.users, v.id = u.id ∧ v.enabled = true ∧
              sender = ⟨u.id, v.username, s.fleet.store.authoritiesOf u.id⟩) ∧
        ∀ v ∈ s₂.fleet.store.users, v.id = u.id →
          (s₁.Keeps d u.id events → v.created = u.created) ∧
          (¬s₁.Keeps d u.id events → ∃ before e rest, events = before ++ e :: rest ∧
            ¬(s₁.after d before).fleet.HasUser u.id ∧ (s₁.after d before).Creates d e v.created ∧
            (s₁.after d (before ++ [e])).Keeps d u.id rest) := by
  have hserve := serve_of_login (c := d.context m) (s := s) hverb hpath
  rw [hserve, finish_status] at hstatus
  obtain ⟨hpost, login, u, hbody, hopen⟩ := open_of_serveLogin hstatus
  have hlogin := serveLogin_of_open hpost hbody hopen
  have hnext : s.next d (.request m r) = s := by
    rw [next, hserve, hlogin]
    rfl
  obtain ⟨hu, -⟩ := Login.open?_eq_ok hopen
  refine ⟨u, hu, (Login.welcome (d.context m) s.fleet.store u).token, ?_, ?_⟩
  · rw [hserve, hlogin, finish, if_neg (by rw [hpost]; decide)]
    rfl
  · intro events m' headers target htoken
    dsimp only
    rw [hnext]
    refine ⟨identify_issued (hs.after events).sound htoken, ?_⟩
    intro v hv hvid
    exact ⟨fun hkeeps => created_of_keeps hs.sound hkeeps hu rfl hv hvid,
      fun hkeeps => creates_of_not_keeps hs.sound hkeeps hv hvid⟩

/-- Whoever carries the token of one account after the replacement passes as the other
one at most. -/
theorem alice_token_passes :
    ∃ u ∈ (having alice).fleet.store.users, ∃ token,
      ((having alice).serve (Setup.plain.context .epoch) loginAlice).response.content =
        .json (Message.toJson (Welcome.mk token ((having alice).fleet.store.profile u))) ∧
      ∀ headers target sender, Http.Credentials.token? headers target = some token →
        Sender.identify (Setup.plain.context .later) (having bob).fleet.store headers target =
          .ok sender →
        ∃ v ∈ (having bob).fleet.store.users, sender.id = v.id ∧ sender.username = v.username := by
  have hserve : (having alice).serve (Setup.plain.context .epoch) loginAlice =
      finish (Setup.plain.context .epoch) loginAlice
        ((having alice).serveLogin (Setup.plain.context .epoch) loginAlice) :=
    serve_of_login (by decide) rfl
  have hstatus : ((having alice).serve (Setup.plain.context .epoch) loginAlice).response.status =
      200 := by
    rw [hserve, serveLogin_alice]
    rfl
  have hstate : (having alice).next .plain (.request .epoch loginAlice) = having alice := by
    rw [next, hserve, serveLogin_alice]
    rfl
  have hverb : loginAlice.verb ≠ .options := by decide
  obtain ⟨u, hu, token, hcontent, hlater⟩ := login_token_passes reachable_alice hverb rfl hstatus
  refine ⟨u, hu, token, hcontent, ?_⟩
  intro headers target sender htoken hidentify
  have hpasses := (hlater replacement .later headers target htoken).1 sender
  rw [hstate, after_replacement] at hpasses
  obtain ⟨-, v, hv, hid, -, rfl⟩ := hpasses.mp hidentify
  exact ⟨v, hv, hid.symm, rfl⟩

/-- A token that was issued for one account may pass as another. -/
theorem not_always_kept :
    ¬∀ (d : Setup) (s : State) (m m' : Moment) (r r' : Request) (u : User) (token : String)
      (events : List Event) (sender : Sender),
      Reachable d s → r.path = "/api/auth/login" →
      (s.serve (d.context m) r).response.status = 200 →
      u ∈ s.fleet.store.users →
      (s.serve (d.context m) r).response.content =
        .json (Message.toJson (Welcome.mk token (s.fleet.store.profile u))) →
      Http.Credentials.token? r'.headers r'.target = some token →
      Sender.identify (d.context m') ((s.next d (.request m r)).after d events).fleet.store
        r'.headers r'.target = .ok sender →
      (s.next d (.request m r)).Keeps d u.id events := by
  intro h
  let c := Setup.plain.context .epoch
  let token := (Login.welcome c (having alice).fleet.store alice).token
  let r' : Request := (bare .get "/api/auth/me").bearing token
  have hserve : (having alice).serve c loginAlice =
      finish c loginAlice ((having alice).serveLogin c loginAlice) :=
    serve_of_login (by decide) rfl
  have hstate : (having alice).next .plain (.request .epoch loginAlice) = having alice := by
    rw [next, hserve, serveLogin_alice]
    rfl
  have htoken : Http.Credentials.token? r'.headers r'.target = some token :=
    Http.Credentials.token?_bearing (Token.isReadable_encode _ _) _
  have hidentify : Sender.identify (Setup.plain.context .later) (having bob).fleet.store r'.headers
      r'.target = .ok ⟨Table.firstId, "bob",
        (having alice).fleet.store.authoritiesOf Table.firstId⟩ := by
    refine (identify_issued ?_ htoken _).mpr ⟨by decide, bob, ?_, rfl, rfl, rfl⟩
    · rw [← after_replacement]
      exact (reachable_alice.after replacement).sound
    · exact List.mem_cons_of_mem _ List.mem_cons_self
  have hkeeps := h .plain (having alice) .epoch .later loginAlice r' alice token replacement
    ⟨Table.firstId, "bob", (having alice).fleet.store.authoritiesOf Table.firstId⟩ reachable_alice
    rfl (by rw [hserve, serveLogin_alice]; rfl) (List.mem_cons_of_mem _ List.mem_cons_self)
    (by rw [hserve, serveLogin_alice]; rfl) htoken
    (by rw [hstate, after_replacement]; exact hidentify)
  rw [hstate] at hkeeps
  have hhas := hkeeps [.request .later deleteAlice] (List.prefix_append _ _)
  rw [after, List.foldl_cons, next_deleteAlice] at hhas
  cases hhas

end State
end Service
end BotFleet
