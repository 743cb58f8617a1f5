import BotFleet.Proofs.Http.Credentials
import BotFleet.Proofs.Service.Reading
import BotFleet.Proofs.Token.Valid

/-
Who is let in.

`Admits` says, without an order of checks, whom a request is attributed to: the
token that it carries is valid, its subject is an identifier, and the store holds an
enabled account with that identifier.  Every path but that of logging in asks for this
before it looks at the method, the parameters or the body, so a request for which
nobody is admitted is refused in one way and leaves no trace.
-/

namespace BotFleet

theorem Http.Rejection.le_status (rejection : Rejection) : 400 ≤ rejection.status := by
  cases rejection <;> simp [status]

namespace Service

open Http (Request)
open Json (Message)

/-- The request that carries the header fields and the target comes from the sender. -/
def Admits (c : Context) (store : Store) (headers : List Http.Header) (target : Http.Target)
    (sender : Sender) : Prop :=
  ∃ token claims user,
    Http.Credentials.token? headers target = some token ∧
      Token.Valid c.config.secret c.seconds token claims ∧
      claims.userId? = some user.id ∧
      user ∈ store.users ∧ user.enabled = true ∧
      sender = ⟨user.id, user.username, claims.authorities⟩

namespace Sender

variable {c : Context} {store : Store} {headers : List Http.Header} {target : Http.Target}

theorem ofToken_eq_ok_iff {token : String} {sender : Sender} :
    ofToken c store token = .ok sender ↔
      ∃ claims id user, Token.verify c.config.secret c.seconds token = .ok claims ∧
        claims.userId? = some id ∧ store.user? id = some user ∧ user.enabled = true ∧
        sender = ⟨user.id, user.username, claims.authorities⟩ := by
  unfold ofToken
  constructor
  · intro h
    split at h
    · cases h
    rename_i claims hverify
    split at h
    · cases h
    rename_i id hid
    split at h
    · cases h
    rename_i user huser
    cases h
    obtain ⟨hfind, henabled⟩ := Option.filter_eq_some_iff.mp huser
    exact ⟨claims, id, user, hverify, hid, hfind, henabled, rfl⟩
  · rintro ⟨claims, id, user, hverify, hid, huser, henabled, rfl⟩
    have hfilter : (store.user? id).filter (·.enabled) = some user :=
      Option.filter_eq_some_iff.mpr ⟨huser, henabled⟩
    simp only [hverify, hid, hfilter]

theorem identify_eq_ok_iff (hs : store.Sound) {sender : Sender} :
    identify c store headers target = .ok sender ↔ Admits c store headers target sender := by
  rw [identify]
  cases htoken : Http.Credentials.token? headers target with
  | none => simp [Admits, htoken]
  | some token =>
    simp only [ofToken_eq_ok_iff, Admits, htoken, Option.some.injEq]
    constructor
    · rintro ⟨claims, id, user, hverify, hid, huser, henabled, rfl⟩
      obtain ⟨hmem, rfl⟩ := (Table.find?_eq_some_iff hs.users).mp huser
      exact ⟨token, claims, user, rfl, Token.valid_of_verify hverify, hid, hmem, henabled, rfl⟩
    · rintro ⟨_, claims, user, rfl, hvalid, hid, hmem, henabled, rfl⟩
      have huser : store.user? user.id = some user :=
        (Table.find?_eq_some_iff hs.users).mpr ⟨hmem, rfl⟩
      exact ⟨claims, user.id, user, hvalid.verify, hid, huser, henabled, rfl⟩

/-- Whatever is wrong with the credentials, the refusal has the same status. -/
theorem identify_error_status {failure : Failure}
    (h : identify c store headers target = .error failure) : failure.status = 401 := by
  unfold identify at h
  split at h
  · cases h
    rfl
  · unfold ofToken at h
    split at h
    · cases h
      rfl
    · split at h
      · cases h
        rfl
      · split at h
        · cases h
          rfl
        · cases h

/-- A request with a token that is issued at the same time is let in. -/
theorem identify_bearing {user : User} {id : Id}
    (huser : store.user? id = some user) (henabled : user.enabled = true) (username : String)
    (authorities : List String) (r : Request) :
    let token := Token.issue c.config.secret c.config.tokenHours c.seconds id username authorities
    identify c store (r.bearing token).headers (r.bearing token).target =
      .ok ⟨user.id, user.username, authorities⟩ := by
  intro token
  have hfresh := Token.le_expiry c.seconds c.config.tokenHours
  have hvalid : Token.verify c.config.secret c.seconds token =
      .ok (Token.claimsFor c.config.tokenHours c.seconds id username authorities) :=
    Token.Valid.verify (Token.valid_encode (Int.le_trans (Int.sub_le_self _ (by decide)) hfresh))
  have htoken : Http.Credentials.token? (r.bearing token).headers (r.bearing token).target =
      some token :=
    Http.Credentials.token?_bearing (Token.isReadable_encode _ _) r
  rw [identify, htoken]
  exact ofToken_eq_ok_iff.mpr
    ⟨_, id, user, hvalid, Token.userId?_claimsFor _ _ _ _ _, huser, henabled, rfl⟩

end Sender

namespace State

/-- What becomes of a request that a sender was found for. -/
def proceed (c : Context) (route : Route) (r : Request) (sender : Sender) (s : State) : Served :=
  match route with
  | .login => s.serveLogin c r
  | .socket =>
    if r.verb ∈ Route.socket.allowed then
      match Http.Handshake.check r with
      | .error rejection => s.reject rejection
      | .ok () => s.openSocket c
    else s.wrongMethod .socket
  | .resource resource =>
    match resource.reader? r.verb with
    | none => s.wrongMethod route
    | some reader =>
      match reader r with
      | .error rejection => s.reject rejection
      | .ok op => s.perform (op.perform c sender)

/-- What is sent of an answer: no content to a request that only asks for the header,
and the word to browsers in every case. -/
def finish (c : Context) (r : Request) (served : Served) : Served :=
  let response := if r.verb = .head then served.response.withoutContent else served.response
  { served with response := response.adding (Http.Origin.headers c.config.corsOrigin) }

variable {c : Context} {r : Request} {s : State}

theorem finish_status (served : Served) :
    (finish c r served).response.status = served.response.status := by
  rw [finish]
  by_cases hhead : r.verb = .head
  · rw [if_pos hhead]
    rfl
  · rw [if_neg hhead]
    rfl

theorem serve_of_identify {sender : Sender} {route : Route} (hverb : r.verb ≠ .options)
    (hroute : Route.ofPath? r.path = some route) (hlogin : route ≠ .login)
    (h : Sender.identify c s.fleet.store r.headers r.target = .ok sender) :
    s.serve c r = finish c r (s.proceed c route r sender) := by
  rw [serve, if_neg hverb]
  show finish c r (s.serveRoute c r) = _
  rw [serveRoute, hroute]
  cases route with
  | login => exact absurd rfl hlogin
  | socket =>
    have hserved : s.serveSocket c r = s.proceed c .socket r sender := by
      unfold serveSocket identified proceed
      rw [h]
      by_cases hallowed : r.verb ∈ Route.socket.allowed
      · rw [if_pos hallowed]
        exact (if_pos hallowed).symm
      · rw [if_neg hallowed]
        exact (if_neg hallowed).symm
    exact congrArg (finish c r) hserved
  | resource resource =>
    simp only [serveResource, identified, h, proceed]
    cases resource.reader? r.verb <;> rfl

/-- A served request that was refused and left everything as it was. -/
def Refused (failure : Failure) (s : State) (served : Served) : Prop :=
  served.response.status = failure.status ∧ served.state = s ∧ served.notices = failure.notices

theorem identified_error {α : Type} {route : Route} {work : Option α}
    {next : Sender → α → Served} {failure : Failure}
    (h : Sender.identify c s.fleet.store r.headers r.target = .error failure) :
    Refused failure s (s.identified c route r work next) := by
  unfold identified
  rw [h]
  cases work <;> exact ⟨rfl, rfl, rfl⟩

theorem serve_of_identify_error {failure : Failure} {route : Route} (hverb : r.verb ≠ .options)
    (hroute : Route.ofPath? r.path = some route) (hlogin : route ≠ .login)
    (h : Sender.identify c s.fleet.store r.headers r.target = .error failure) :
    Refused failure s (s.serve c r) := by
  have hroutes : Refused failure s (s.serveRoute c r) := by
    rw [serveRoute, hroute]
    cases route with
    | login => exact absurd rfl hlogin
    | socket => exact identified_error h
    | resource resource => exact identified_error h
  rw [serve, if_neg hverb]
  exact ⟨(finish_status _).trans hroutes.1, hroutes.2.1, hroutes.2.2⟩

/-! ## Requests of the first account -/

theorem bodyOf_bearing {α : Type} [Message α] (token : String) (r : Request) :
    bodyOf α (r.bearing token) = bodyOf α r := by
  have hkind : (r.bearing token).text? "content-type" = r.text? "content-type" :=
    congrArg (Option.filter Http.Header.isReadable) (Request.value?_bearing (by decide) token r)
  rw [bodyOf, bodyOf, hkind]
  rfl

/-- A token in front of the header fields does not alter what is asked for. -/
theorem reader_bearing {resource : Resource} {verb : Http.Verb} {reader : Reader}
    (h : resource.reader? verb = some reader) (token : String) (r : Request) :
    reader (r.bearing token) = reader r := by
  have hreader : ∀ verb, resource.readerOf? verb = some reader →
      reader (r.bearing token) = reader r := by
    intro verb h
    unfold Resource.readerOf? at h
    split at h <;> cases h <;>
      first
      | rfl
      | simp only [Reader.withBody, Reader.withIdAndBody, bodyOf_bearing]
  unfold Resource.reader? at h
  split at h
  · exact hreader _ h
  · exact hreader _ h

theorem operation?_bearing (token : String) (r : Request) :
    operation? (r.bearing token) = operation? r := by
  have hverb : (r.bearing token).verb = r.verb := rfl
  have hpath : (r.bearing token).path = r.path := rfl
  rw [operation?, operation?, hverb, hpath]
  rcases Route.ofPath? r.path with _ | ⟨⟩ | ⟨⟩ | resource
  · rfl
  · rfl
  · rfl
  · cases hreader : resource.reader? r.verb with
    | none => simp only [hreader, Option.bind_none]
    | some reader => simp only [hreader, Option.bind_some, reader_bearing hreader]

theorem asked_eq_some_iff {sender : Sender} {op : Operation} :
    s.asked c r = some (sender, op) ↔
      Sender.identify c s.fleet.store r.headers r.target = .ok sender ∧ operation? r = some op := by
  constructor
  · intro h
    rw [asked] at h
    split at h
    · rename_i hidentify hop
      cases h
      exact ⟨hidentify, hop⟩
    · cases h
  · rintro ⟨hidentify, hop⟩
    rw [asked, hidentify, hop]

/-- A request that is admitted as an operation is answered by performing it. -/
theorem serve_of_asked {sender : Sender} {op : Operation} (h : s.asked c r = some (sender, op)) :
    s.serve c r = finish c r (s.perform (op.perform c sender)) := by
  obtain ⟨hidentify, hop⟩ := asked_eq_some_iff.mp h
  obtain ⟨hverb, resource, reader, hroute, hreader, hread⟩ := exists_reader hop
  rw [serve_of_identify hverb hroute (by simp) hidentify, proceed]
  simp only [hreader, hread]

theorem next_of_asked {d : Setup} {m : Moment} {sender : Sender} {op : Operation}
    (h : s.asked (d.context m) r = some (sender, op)) :
    s.next d (.request m r) = (s.perform (op.perform (d.context m) sender)).state := by
  rw [next, serve_of_asked h]
  rfl

/-- The first account as the sender of a request. -/
def root : Sender := ⟨.zero, "root", ["ROLE_ADMIN"]⟩

/-- The request with a token of the first account, issued in the same second. -/
def byRoot (c : Context) (r : Request) : Request :=
  r.bearing <|
    Token.issue c.config.secret c.config.tokenHours c.seconds root.id root.username root.authorities

theorem identify_byRoot {store : Store} {password : String} {created : Instant}
    (hroot : store.user? .zero = some ⟨.zero, "root", true, password, created⟩) (r : Request) :
    Sender.identify c store (byRoot c r).headers (byRoot c r).target = .ok root :=
  Sender.identify_bearing hroot rfl _ _ r

/-- A request of the first account does what it asks for. -/
theorem next_byRoot {d : Setup} {m : Moment} {password : String} {created : Instant}
    {op : Operation}
    (hroot : s.fleet.store.user? .zero = some ⟨.zero, "root", true, password, created⟩)
    (hop : operation? r = some op) :
    s.next d (.request m (byRoot (d.context m) r)) =
      (s.perform (op.perform (d.context m) root)).state :=
  next_of_asked
    (asked_eq_some_iff.mpr ⟨identify_byRoot hroot r, (operation?_bearing _ r).trans hop⟩)

/-- A session is registered for a socket that the first account opens. -/
theorem next_socket_byRoot {d : Setup} {m : Moment} {password : String} {created : Instant}
    (hroot : s.fleet.store.user? .zero = some ⟨.zero, "root", true, password, created⟩)
    (hverb : r.verb = .get) (hroute : Route.ofPath? r.path = some .socket)
    (hcheck : Http.Handshake.check r = .ok ()) :
    s.next d (.request m (byRoot (d.context m) r)) = (s.openSocket (d.context m)).state := by
  have hverb' : (byRoot (d.context m) r).verb = .get := hverb
  have hroute' : Route.ofPath? (byRoot (d.context m) r).path = some .socket := hroute
  have hasked : s.asked (d.context m) (byRoot (d.context m) r) = none := by
    rw [asked, operation?, hverb', hroute', identify_byRoot hroot r]
    rfl
  have hopens : s.opens (d.context m) (byRoot (d.context m) r) = true := by
    rw [opens, hverb', hroute', identify_byRoot hroot r, byRoot, Http.Handshake.check_bearing, hcheck]
    rfl
  rw [next, serve_state, hasked]
  dsimp only
  rw [if_pos hopens]

/-! ## Whoever is not let in -/

/-- A request for a known path is let in if and only if somebody is admitted with it,
and then it goes on as that sender.  Nothing in the state is touched otherwise. -/
theorem admitted_or_unauthorized {d : Setup} {m : Moment} {route : Route} (hs : Reachable d s)
    (hverb : r.verb ≠ .options) (hroute : Route.ofPath? r.path = some route)
    (hlogin : route ≠ .login) :
    (∀ sender, Admits (d.context m) s.fleet.store r.headers r.target sender →
      s.serve (d.context m) r = finish (d.context m) r (s.proceed (d.context m) route r sender)) ∧
    ((¬∃ sender, Admits (d.context m) s.fleet.store r.headers r.target sender) →
      (s.serve (d.context m) r).response.status = 401 ∧ (s.serve (d.context m) r).state = s) := by
  constructor
  · intro sender hadmits
    exact serve_of_identify hverb hroute hlogin ((Sender.identify_eq_ok_iff hs.sound).mpr hadmits)
  · intro hnobody
    cases hidentify : Sender.identify (d.context m) s.fleet.store r.headers r.target with
    | ok sender => exact absurd ⟨sender, (Sender.identify_eq_ok_iff hs.sound).mp hidentify⟩ hnobody
    | error failure =>
      obtain ⟨hstatus, hstate, -⟩ :=
        serve_of_identify_error hverb hroute hlogin hidentify
      exact ⟨hstatus.trans (Sender.identify_error_status hidentify), hstate⟩

/-- The first account is let in with a token of its own, and nobody is without one. -/
theorem first_admitted_or_unauthorized :
    let c := Setup.plain.context .epoch
    let r := bare .get "/api/user"
    (first .refused).serve c (byRoot c r) =
        finish c (byRoot c r) ((first .refused).proceed c (.resource .users) (byRoot c r) root) ∧
      ((first .refused).serve c r).response.status = 401 ∧
      ((first .refused).serve c r).state = first .refused := by
  intro c r
  have hreach := reachable_first .refused
  have hroute : Route.ofPath? "/api/user" = some (.resource .users) := by rfl
  have hlogin : Route.resource .users ≠ .login := by decide
  have hadmits : Admits c firstStore (byRoot c r).headers (byRoot c r).target root :=
    (Sender.identify_eq_ok_iff hreach.sound).mp (identify_byRoot (by rfl) r)
  refine ⟨(admitted_or_unauthorized (r := byRoot c r) hreach (by decide) hroute hlogin).1 _ hadmits,
    (admitted_or_unauthorized (r := r) hreach (by decide) hroute hlogin).2 ?_⟩
  rintro ⟨sender, token, claims, user, htoken, -⟩
  cases htoken

end State
end Service
end BotFleet
