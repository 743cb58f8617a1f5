import BotFleet.Proofs.Password
import BotFleet.Proofs.Service.Bearer
import BotFleet.Proofs.Service.Verdict

/-
Which passwords open an account.

Two kinds of requests give an account a password, and both refuse one of more than
seventy-two bytes before it is hashed.  What they store is kept by everything else that
happens, starts of the service included.  A login hashes whatever it is sent, without
that check, so an account is opened by its password and by every text that the hash
does not tell from it.
-/

namespace BotFleet

theorem Validation.size_le_of_password {password : String}
    (h : Validation.password password = .ok ()) : password.utf8ByteSize ≤ 72 := by
  unfold Validation.password at h
  split at h
  · cases h
  · split at h
    · cases h
    · rename_i hsize
      exact Nat.not_lt.mp hsize

/-- In a sound store a user name leads to the one account that has it. -/
theorem Store.userNamed?_eq_some {s : Store} (hs : s.Sound) {u : User} (hu : u ∈ s.users) :
    s.userNamed? u.username = some u := by
  cases hfind : s.userNamed? u.username with
  | none => exact absurd rfl (Store.userNamed?_eq_none_iff.mp hfind u hu)
  | some v =>
    obtain ⟨hv, hname⟩ := Store.mem_of_userNamed? hfind
    rw [List.inj_on_of_nodup_map hs.usernames hv hu hname]

namespace Service

open Http (Request)
open Json (Message)

/-! ## What is stored -/

/-- The operation gives the password to the account that has the identifier
afterwards. -/
inductive Operation.Gives (f : Fleet) (id : Id) (password : String) : Operation → Prop
  | create {request : NewUser} (hnew : ¬f.HasUser id) (h : request.password = password) :
    Gives f id password (.createUser request)
  | edit {request : UserEdit} (h : request.password = some password) :
    Gives f id password (.editUser id request)

section Effect

variable {c : Context} {sender : Sender} {f f' : Fleet} {op : Operation} {a : Answer} {v : User}

theorem Effect.password_of_gives {password : String} (h : Effect c sender f op a f')
    (hgives : op.Gives f v.id password) (hv : v ∈ f'.store.users) :
    Hashed c (some password) (some v.password) := by
  rcases h.user_cases hv with ⟨hold, hother⟩ | ⟨request, hash, rfl, -, hhash, hrow⟩ |
    ⟨request, hash, rfl, hhash, u, -, -, hrow⟩
  · cases hgives with
    | create hnew _ => exact absurd (Table.has_iff.mpr ⟨v, hold, rfl⟩) hnew
    | edit _ => exact absurd rfl (hother _)
  · cases hgives with
    | create _ h => rwa [hrow, ← h]
  · cases hgives with
    | edit h =>
      rw [h] at hhash
      cases hhash with
      | some hvalid hhash =>
        rw [hrow]
        exact .some hvalid hhash

theorem Effect.password_of_not_gives (h : Effect c sender f op a f')
    (hgives : ∀ password, ¬op.Gives f v.id password) (hv : v ∈ f'.store.users) :
    ∃ u ∈ f.store.users, u.id = v.id ∧ u.password = v.password := by
  rcases h.user_cases hv with ⟨hold, -⟩ | ⟨request, hash, rfl, hnew, -, -⟩ |
    ⟨request, hash, rfl, hhash, u, hu, hid, hrow⟩
  · exact ⟨v, hold, rfl, rfl⟩
  · exact absurd (.create hnew rfl) (hgives request.password)
  · refine ⟨u, hu, hid, ?_⟩
    cases hpassword : request.password with
    | some password => exact absurd (.edit hpassword) (hgives password)
    | none =>
      rw [hpassword] at hhash
      cases hhash
      rw [hrow]
      rfl

end Effect

namespace State

variable {d : Setup} {s t : State} {id : Id} {password : String}

/-- The event is a request that is let in and not answered as a failure, and that gives
the password to the account with the identifier. -/
def SetsPassword (d : Setup) (s : State) (e : Event) (id : Id) (password : String) : Prop :=
  ∃ m r sender op, e = .request m r ∧ s.asked (d.context m) r = some (sender, op) ∧
    op.Gives s.fleet id password ∧ (s.serve (d.context m) r).response.isFailure = false ∧
    (s.next d e).fleet.HasUser id

/-- The password is the last one that a request has given to the account with the
identifier, which has been there ever since. -/
inductive LastSet (d : Setup) (id : Id) (password : String) : State → Prop
  | set {s : State} {e : Event} (hs : Reachable d s) (h : s.SetsPassword d e id password) :
    LastSet d id password (s.next d e)
  | kept {s : State} {e : Event} (hs : LastSet d id password s)
    (hhas : (s.next d e).fleet.HasUser id) (h : ∀ other, ¬s.SetsPassword d e id other) :
    LastSet d id password (s.next d e)
  | restarted {s s' : State} (hs : LastSet d id password s) (h : s'.StartsFrom d s.fleet.store) :
    LastSet d id password s'

theorem LastSet.reachable (h : LastSet d id password s) : Reachable d s := by
  induction h with
  | set hs _ => exact hs.next _
  | kept _ _ _ ih => exact ih.next _
  | restarted _ h ih => exact .restarted ih h

theorem StartsFrom.mem_users {store : Store} (h : s.StartsFrom d store) {u : User}
    (hu : u ∈ store.users) : u ∈ s.fleet.store.users := by
  obtain ⟨m, draws, first, after, link, hroot, rfl⟩ := h.eq
  rcases Bootstrap.ensureRoot_eq_ok hroot with ⟨v, -, -, rfl⟩ | ⟨-, -, hash, v, -, hcall⟩
  · exact hu
  · obtain ⟨-, -, -, -, rfl⟩ := Store.addUser_eq_ok_iff.mp hcall
    exact Table.mem_insert.mpr (.inr hu)

/-- What is stored for the account with the identifier is a hash of the password, made
when the password was checked. -/
def Stores (d : Setup) (id : Id) (password : String) (s : State) : Prop :=
  ∃ u ∈ s.fleet.store.users, u.id = id ∧ ∃ m, Hashed (d.context m) (some password) (some u.password)

/-- Whoever was given a password last has a hash of it stored. -/
theorem LastSet.stores (h : LastSet d id password s) : s.Stores d id password := by
  induction h with
  | @set s e hs h =>
    obtain ⟨m, r, sender, op, rfl, hasked, hgives, hsuccess, hhas⟩ := h
    obtain ⟨v, hv, rfl⟩ := Table.has_iff.mp hhas
    rw [isFailure_serve hasked] at hsuccess
    obtain ⟨a, heffect⟩ := effect_of_success hsuccess
    rw [← next_of_asked hasked] at heffect
    exact ⟨v, hv, rfl, m, heffect.password_of_gives hgives hv⟩
  | @kept s e hs hhas h ih =>
    obtain ⟨u, hu, hid, m, hhash⟩ := ih
    have hsound := hs.reachable.sound
    rcases next_cases d hsound e with
      ⟨m', r, sender, op, a, rfl, hasked, hsuccess, heffect⟩ | halike
    · obtain ⟨v, hv, rfl⟩ := Table.has_iff.mp hhas
      -- An operation that had given a password would have been answered with success.
      have hgives (other) : ¬op.Gives s.fleet v.id other := fun hgives =>
        h other ⟨m', r, sender, op, rfl, hasked, hgives, hsuccess, hhas⟩
      obtain ⟨w, hw, hwid, hpassword⟩ := heffect.password_of_not_gives hgives hv
      have hsame : w = u := Table.eq_of_key_eq hsound.users hw hu (hwid.trans hid.symm)
      rw [← hsame, hpassword] at hhash
      exact ⟨v, hv, rfl, m, hhash⟩
    · refine ⟨u, ?_, hid, m, hhash⟩
      rwa [halike.store]
  | restarted hs h ih =>
    obtain ⟨u, hu, hid, m, hhash⟩ := ih
    exact ⟨u, h.mem_users hu, hid, m, hhash⟩

end State

/-! ## What a login accepts -/

theorem Login.exists_open?_iff {c : Context} {store : Store} {login : BotFleet.Login} {u : User}
    (hu : store.userNamed? login.username = some u) :
    (∃ v, open? c store login = .ok v) ↔
      u.enabled = true ∧ c.scheme.verify login.password u.password = .ok true := by
  rw [open?, hu]
  cases henabled : u.enabled with
  | false =>
    rw [Option.filter_some_neg (by simp [henabled])]
    simp
  | true =>
    rw [Option.filter_some_pos henabled]
    dsimp only
    rcases c.scheme.verify login.password u.password with fault | _ | _ <;> simp

/-- The setup without any settings, in which what counts of a password is stored as it
is. -/
def Setup.clear : Setup := ⟨.default, .plain⟩

namespace State

variable {d : Setup} {c : Context} {s t : State} {r : Request} {id : Id} {password : String}

theorem status_login_iff {login : BotFleet.Login} (hverb : r.verb = .post)
    (hpath : r.path = "/api/auth/login") (hbody : bodyOf BotFleet.Login r = .ok login) :
    (s.serve c r).response.status = 200 ↔ ∃ u, Login.open? c s.fleet.store login = .ok u := by
  rw [serve_of_login (by rw [hverb]; decide) hpath, finish_status]
  constructor
  · intro hstatus
    obtain ⟨-, found, u, hfound, hopen⟩ := open_of_serveLogin hstatus
    rw [hbody] at hfound
    cases hfound
    exact ⟨u, hopen⟩
  · rintro ⟨u, hopen⟩
    rw [serveLogin_of_open hverb hbody hopen]
    rfl

/-! ## An account with a password of seventy-two bytes -/

/-- A password that leaves no room for its end. -/
def longest : String := String.ofList (List.replicate 72 'a')

def carol : User := ⟨Table.firstId, "carol", true, Password.Scheme.plainText longest, ⟨0, 0⟩⟩

/-- The state after a first start for which no password was drawn. -/
def openedClear : State where
  fleet := {
    store := { Store.fresh with
      users := [⟨.zero, "root", true, Password.Scheme.plainText "", ⟨0, 0⟩⟩]
      userGrants := [⟨.zero, .zero⟩] }
    control := (first .refused).fleet.control }
  registry := .empty

/-- The state in which there is one account besides the first one. -/
def havingCarol : State where
  fleet := {
    store := { openedClear.fleet.store with
      users := openedClear.fleet.store.users ++ [carol]
      userGrants := openedClear.fleet.store.userGrants ++ [⟨carol.id, Store.userAuthority.id⟩] }
    control := openedClear.fleet.control }
  registry := .empty

def createCarol : Request :=
  byRoot (Setup.clear.context .epoch) (posting "/api/user" (NewUser.mk "carol" longest true))

def loginCarol (password : String) : Request :=
  posting "/api/auth/login" (BotFleet.Login.mk "carol" password)

theorem reachable_openedClear : Reachable .clear openedClear := by
  have hprepare : Startup.prepare (Setup.clear.context .epoch) [] (fun _ => .ok .fresh) =
      .ok (some "", openedClear.fleet.store) := by
    have hlocate : Startup.locate (Setup.clear.context .epoch).config = _ := locate_plain
    rw [Startup.prepare, hlocate]
    rfl
  have horigin : Startup.checkOrigin Setup.clear.config.corsOrigin = .ok () := rfl
  exact .started ⟨.epoch, [], ⟨"", [], .refused, []⟩, run_of_prepare hprepare horigin⟩

theorem asked_createCarol :
    openedClear.asked (Setup.clear.context .epoch) createCarol =
      some (root, .createUser ⟨"carol", longest, true⟩) := by
  have hop : operation? (posting "/api/user" (NewUser.mk "carol" longest true)) =
      some (.createUser ⟨"carol", longest, true⟩) :=
    operation?_withBody rfl rfl ⟨by decide, trivial, trivial, trivial, trivial⟩
      (by decide +kernel)
  exact asked_eq_some_iff.mpr ⟨identify_byRoot rfl _, (operation?_bearing _ _).trans hop⟩

theorem lastSet_carol : LastSet .clear carol.id longest havingCarol := by
  have hnext : openedClear.next .clear (.request .epoch createCarol) = havingCarol :=
    (next_of_asked asked_createCarol).trans rfl
  have hnew : ¬openedClear.fleet.HasUser carol.id := nofun
  have hsuccess : (openedClear.serve (Setup.clear.context .epoch) createCarol).response.isFailure =
      false :=
    (isFailure_serve asked_createCarol).trans rfl
  rw [← hnext]
  refine .set reachable_openedClear
    ⟨.epoch, createCarol, root, _, rfl, asked_createCarol, .create hnew rfl, hsuccess, ?_⟩
  rw [hnext]
  rfl

theorem bodyOf_loginCarol {password : String}
    (hsize : Utf8.size (Message.write (BotFleet.Login.mk "carol" password)) ≤ longestBody) :
    bodyOf BotFleet.Login (loginCarol password) = .ok ⟨"carol", password⟩ :=
  bodyOf_posting ⟨by decide, trivial, trivial, trivial⟩ hsize

/-- A text that goes on where the password ends is not told from it. -/
theorem alias_longest (rest : String) : Password.Alias longest (longest ++ rest) := by
  refine .longer (by decide +kernel) ?_
  rw [String.toList_append]
  exact List.prefix_append _ _

/-- An account whose password was last set by a request is opened by that password and by
the texts that the hash does not tell from it, as long as it is enabled. -/
theorem login_accepts_current (ht : LastSet d id password t) :
    ∃ u, t.fleet.store.user? id = some u ∧
      ∀ m r candidate, d.scheme.Tells password candidate → r.verb = .post →
        r.path = "/api/auth/login" → bodyOf BotFleet.Login r = .ok ⟨u.username, candidate⟩ →
        ((t.serve (d.context m) r).response.status = 200 ↔
          u.enabled = true ∧ (candidate = password ∨ Password.Alias password candidate)) := by
  have hsound := ht.reachable.sound
  obtain ⟨u, hu, hid, m', hhash⟩ := ht.stores
  refine ⟨u, (Table.find?_eq_some_iff hsound.users).mpr ⟨hu, hid⟩, ?_⟩
  intro m r candidate htells hverb hpath hbody
  cases hhash with
  | some hvalid hhash =>
    have hverify : (d.context m).scheme.verify candidate u.password = .ok (decide
        (Password.effectiveBytes candidate = Password.effectiveBytes password)) :=
      htells _ _ _ hhash
    rw [status_login_iff hverb hpath hbody,
      Login.exists_open?_iff (Store.userNamed?_eq_some hsound hu), hverify, Except.ok.injEq,
      decide_eq_true_iff, Password.effectiveBytes_eq_iff (Validation.size_le_of_password hvalid)]

/-- The account is opened by its password and by a longer text, but not by a shorter
one. -/
theorem carol_login_accepts :
    LastSet .clear carol.id longest havingCarol ∧
      let login password :=
        (havingCarol.serve (Setup.clear.context .later) (loginCarol password)).response.status
      login longest = 200 ∧ login (longest ++ "b") = 200 ∧ login "a" ≠ 200 := by
  obtain ⟨u, hu, hlogin⟩ := login_accepts_current lastSet_carol
  have hcarol : some carol = some u := hu
  cases hcarol
  have htells := Password.Scheme.plain_tells longest
  refine ⟨lastSet_carol, ?_, ?_, ?_⟩
  · exact (hlogin _ _ _ (htells _) rfl rfl (bodyOf_loginCarol (by decide +kernel))).mpr
      ⟨rfl, .inl rfl⟩
  · exact (hlogin _ _ _ (htells _) rfl rfl (bodyOf_loginCarol (by decide +kernel))).mpr
      ⟨rfl, .inr (alias_longest "b")⟩
  · intro hstatus
    obtain ⟨-, hsame | ⟨-, hprefix⟩ | ⟨hsize, -⟩ | ⟨hsize, -⟩⟩ :=
      (hlogin _ _ _ (htells "a") rfl rfl (bodyOf_loginCarol (by decide +kernel))).mp hstatus
    · revert hsame
      decide +kernel
    · exact absurd hprefix.length_le (by decide +kernel)
    · revert hsize
      decide +kernel
    · revert hsize
      decide +kernel

/-- An account may be opened by a text that is not its password. -/
theorem not_only_current :
    ¬∀ (d : Setup) (s : State) (id : Id) (password candidate : String) (u : User) (m : Moment)
      (r : Request),
      (∀ password candidate, d.scheme.Tells password candidate) → LastSet d id password s →
      s.fleet.store.user? id = some u → r.verb = .post → r.path = "/api/auth/login" →
      bodyOf BotFleet.Login r = .ok ⟨u.username, candidate⟩ →
      ((s.serve (d.context m) r).response.status = 200 ↔
        u.enabled = true ∧ candidate = password) := by
  intro h
  have hbody : bodyOf BotFleet.Login (loginCarol (longest ++ "b")) =
      .ok ⟨"carol", longest ++ "b"⟩ :=
    bodyOf_loginCarol (by decide +kernel)
  have hbytes : Password.effectiveBytes (longest ++ "b") = Password.effectiveBytes longest :=
    (Password.effectiveBytes_eq_iff (by decide +kernel)).mpr (.inr (alias_longest "b"))
  have hverify : (Setup.clear.context .epoch).scheme.verify (longest ++ "b") carol.password =
      .ok true := by
    rw [← decide_eq_true hbytes]
    exact Password.Scheme.plain_tells longest _ Config.default.hashCost [] _ rfl
  have hstatus : (havingCarol.serve (Setup.clear.context .epoch)
      (loginCarol (longest ++ "b"))).response.status = 200 :=
    (status_login_iff rfl rfl hbody).mpr ((Login.exists_open?_iff rfl).mpr ⟨rfl, hverify⟩)
  have hsame := ((h .clear havingCarol carol.id longest (longest ++ "b") carol .epoch _
    Password.Scheme.plain_tells lastSet_carol rfl rfl rfl hbody).mp hstatus).2
  revert hsame
  decide +kernel

end State
end Service
end BotFleet
