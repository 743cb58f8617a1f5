import BotFleet.Proofs.Service.Bearer

/-
What whoever has logged in is told about the account.

A login is answered with a token and with the account.  The token comes back with the
next request, in a header field or in the query, and its claims lead to the account
again by its identifier alone.  Since a login changes nothing, that is the account that
logged in, and it has the authorities that it had then.
-/

namespace BotFleet
namespace Service

open Http (Request)
open Json (Message)

namespace Sender

variable {store : Store} {u : User} {sender : Sender}

theorem run_showMe {f : Fleet} (hu : f.store.user? sender.id = some u) :
    sender.showMe.run f = (.ok (.shown (Message.toJson (f.store.profile u))), f) := by
  rw [showMe, Action.run_bind, Action.run_find, hu]
  rfl

end Sender

namespace State

variable {c : Context} {d : Setup} {s : State} {r : Request}

/-- What is shown to a sender about itself. -/
theorem serve_showMe {sender : Sender} {u : User} (hverb : r.verb = .get)
    (hpath : r.path = "/api/auth/me")
    (hidentify : Sender.identify c s.fleet.store r.headers r.target = .ok sender)
    (hu : s.fleet.store.user? sender.id = some u) :
    s.serve c r =
      finish c r ⟨.of 200 (.json (Message.toJson (s.fleet.store.profile u))), s, []⟩ := by
  have hroute : Route.ofPath? r.path = some (.resource .me) := by
    rw [hpath]
    rfl
  have hreader : Resource.me.reader? r.verb = some (.plain .showMe) := by
    rw [hverb]
    rfl
  have hoptions : r.verb ≠ .options := by
    rw [hverb]
    decide
  have hop : operation? r = some .showMe := operation?_eq_some hoptions hroute hreader rfl
  rw [serve_of_asked (asked_eq_some_iff.mpr ⟨hidentify, hop⟩)]
  show finish c r (s.perform sender.showMe) = _
  rw [perform_of_ok (Sender.run_showMe hu)]
  rfl

/-- Whoever has logged in is shown the same account with the next request that carries the
token, and this account is the one that the token's claims are about. -/
theorem me_agrees_with_login {m : Moment} (hs : Reachable d s) (hverb : r.verb = .post)
    (hpath : r.path = "/api/auth/login")
    (hstatus : (s.serve (d.context m) r).response.status = 200) :
    ∃ (token : String) (profile : Profile) (claims : Token.Claims),
      (s.serve (d.context m) r).response.content =
        .json (.record [("token", .text token), ("user", Message.toJson profile)]) ∧
      Token.verify d.config.secret (d.context m).seconds token = .ok claims ∧
      claims.userId? = some profile.id ∧ claims.username = profile.username ∧
      claims.authorities = profile.authorities ∧
      claims.expires = Token.expiry (d.context m).seconds d.config.tokenHours ∧
      ∀ m' r', r'.verb = .get → r'.path = "/api/auth/me" →
        Http.Credentials.Carries token r'.headers r'.target →
        (d.context m').seconds.val - Token.leeway ≤ claims.expires.val →
        let served := (s.next d (.request m r)).serve (d.context m') r'
        served.response.status = 200 ∧
          served.response.content = .json (Message.toJson profile) := by
  have hoptions : r.verb ≠ .options := by
    rw [hverb]
    decide
  have hserve := serve_of_login (c := d.context m) (s := s) hoptions hpath
  rw [hserve, finish_status] at hstatus
  obtain ⟨-, login, u, hbody, hopen⟩ := open_of_serveLogin hstatus
  have hlogin := serveLogin_of_open hverb hbody hopen
  have hnext : s.next d (.request m r) = s := by
    rw [next, hserve, hlogin]
    rfl
  obtain ⟨hmem, henabled⟩ := Login.open?_eq_ok hopen
  have hu : s.fleet.store.user? u.id = some u :=
    (Table.find?_eq_some_iff hs.sound.users).mpr ⟨hmem, rfl⟩
  let claims := Token.claimsFor d.config.tokenHours (d.context m).seconds u.id u.username
    (s.fleet.store.authoritiesOf u.id)
  have hfresh : (d.context m).seconds.val - Token.leeway ≤ claims.expires.val :=
    Int.le_trans (Int.sub_le_self _ (by decide)) (Token.le_expiry _ _)
  refine ⟨Token.encode d.config.secret claims, s.fleet.store.profile u, claims, ?_,
    (Token.valid_encode hfresh).verify, Token.userId?_claimsFor _ _ _ _ _, rfl, rfl, rfl, ?_⟩
  · rw [hserve, hlogin, finish, if_neg (by rw [hverb]; decide)]
    rfl
  · intro m' r' hget hme hcarries hlifetime
    have hidentify : Sender.identify (d.context m') s.fleet.store r'.headers r'.target =
        .ok ⟨u.id, u.username, s.fleet.store.authoritiesOf u.id⟩ :=
      (identify_issued hs.sound (Token.token?_of_carries hcarries) _).mpr
        ⟨hlifetime, u, hmem, rfl, henabled, rfl⟩
    rw [hnext]
    dsimp only
    rw [serve_showMe hget hme hidentify hu, finish, if_neg (by rw [hget]; decide)]
    exact ⟨rfl, rfl⟩

/-- The account is shown to whoever has its token in the header fields of the next request. -/
theorem alice_me_agrees :
    ∃ (token : String) (profile : Profile),
      ((having alice).serve (Setup.plain.context .epoch) loginAlice).response.content =
        .json (.record [("token", .text token), ("user", Message.toJson profile)]) ∧
      (((having alice).next .plain (.request .epoch loginAlice)).serve
        (Setup.plain.context .later) ((bare .get "/api/auth/me").bearing token)).response.content =
        .json (Message.toJson profile) := by
  have hstatus : ((having alice).serve (Setup.plain.context .epoch) loginAlice).response.status =
      200 := by
    rw [serve_of_login (by decide) rfl, finish_status, serveLogin_alice]
    rfl
  obtain ⟨token, profile, claims, hcontent, -, -, -, -, hexpires, hme⟩ :=
    me_agrees_with_login (m := .epoch) reachable_alice rfl rfl hstatus
  refine ⟨token, profile, hcontent, (hme .later ((bare .get "/api/auth/me").bearing token) rfl rfl
    (.field (Http.Credentials.value?_authorization_bearing token _)) ?_).2⟩
  rw [hexpires]
  decide

end State
end Service
end BotFleet
