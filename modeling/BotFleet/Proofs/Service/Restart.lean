import BotFleet.Proofs.Service.CurrentPassword
import BotFleet.Proofs.Store.Rights

/-
Starting again on what a run has stored.

A start looks for the first account by its identifier, and adds it under its name if it
is missing.  User names are unique, so the account can be added unless another one has
been given the name.  Only requests give names to accounts, and `Reserved` says that
none of them has given this one away.

The theorem this file exists for is `bootstraps_unless_taken`.
-/

namespace BotFleet

namespace Bootstrap

variable {scheme : Password.Scheme} {cost : Cost} {now : Instant} {chance : Chance}
  {s s' : Store} {hash : String}

/-- The second store has a new first account, which is enabled and holds the authority of
administrators and nothing else.  No other account has come or gone. -/
structure Founds (hash : String) (now : Instant) (s s' : Store) : Prop where
  row : s'.user? rootId = some ⟨rootId, rootName, true, hash, now⟩
  authorities : s'.authoritiesOf rootId = ["ROLE_ADMIN"]
  grants : ∀ authority,
    ⟨rootId, authority⟩ ∈ s'.userGrants ↔ authority = Store.adminAuthority.id
  groups : ∀ group, rootId ∉ s'.membersOf group
  others : ∀ u, u.id ≠ rootId → (u ∈ s'.users ↔ u ∈ s.users)

/-- As long as the name is free, a missing first account is added. -/
theorem ensureRoot_of_free (hs : s.Sound) (hid : s.user? rootId = none)
    (hname : s.userNamed? rootName = none)
    (hhash : scheme.hash cost chance.salt (passwordOf chance) = .ok hash) :
    ∃ after, ensureRoot scheme cost now chance s = .ok (some (passwordOf chance), after) ∧
      Founds hash now s after := by
  have hadmin : Store.adminAuthority ∈ s.authorities := by
    rw [hs.authorities]
    exact List.mem_cons_of_mem _ List.mem_cons_self
  have hfresh : Table.has rootId s.users = false := Table.has_of_find?_eq_none hid
  let root : User := ⟨rootId, rootName, true, hash, now⟩
  obtain ⟨after, hcall⟩ : ∃ after, s.addUser root Store.adminAuthority.id = .ok (root, after) :=
    ⟨_, Store.addUser_eq_ok_iff.mpr
      ⟨hfresh, hname, Table.has_iff.mpr ⟨_, hadmin, rfl⟩, rfl, rfl⟩⟩
  have hroot : ensureRoot scheme cost now chance s = .ok (some (passwordOf chance), after) := by
    rw [ensureRoot_of_none hid hhash, Store.createUserWithId, hcall]
  obtain ⟨hrights, hgroups⟩ := hs.addUser_rights hadmin hcall
  have hsound := hs.addUser hcall
  obtain ⟨-, -, -, -, rfl⟩ := Store.addUser_eq_ok_iff.mp hcall
  refine ⟨_, hroot, ?_, hrights, fun authority => ?_, hgroups, fun u hne => ?_⟩
  · exact (Table.find?_eq_some_iff hsound.users).mpr ⟨Table.mem_insert.mpr (.inl rfl), rfl⟩
  · rw [Store.mem_link, Grant.mk.injEq]
    constructor
    · rintro (⟨-, rfl⟩ | hold)
      · rfl
      · exact absurd hold (hs.not_mem_userGrants hfresh authority)
    · rintro rfl
      exact .inl ⟨rfl, rfl⟩
  · rw [Table.mem_insert]
    refine or_iff_right ?_
    rintro rfl
    exact hne rfl

/-- A missing first account cannot be added once another account has its name. -/
theorem ensureRoot_of_taken {u : User} (hid : s.user? rootId = none)
    (hname : s.userNamed? rootName = some u)
    (hhash : scheme.hash cost chance.salt (passwordOf chance) = .ok hash) :
    ensureRoot scheme cost now chance s = .error (.store .duplicate) := by
  rw [ensureRoot_of_none hid hhash, Store.createUserWithId, Store.addUser, hname]
  simp

end Bootstrap

namespace Service

open Http (Request)

/-- The operation gives an account other than the first one its name. -/
inductive Operation.Takes : Operation → Prop
  | create {request : NewUser} (h : request.username = Bootstrap.rootName) :
    Takes (.createUser request)
  | edit {id : Id} {request : UserEdit} (hid : id ≠ Bootstrap.rootId)
    (h : request.username = some Bootstrap.rootName) : Takes (.editUser id request)

namespace State

variable {d : Setup} {s s' : State} {cost : Cost} {now : Instant} {chance : Bootstrap.Chance}

/-- The event is a request that is let in, is not answered as a failure and gives the name
of the first account to another one. -/
def TakesName (d : Setup) (s : State) (e : Event) : Prop :=
  ∃ m r sender op, e = .request m r ∧ s.asked (d.context m) r = some (sender, op) ∧
    op.Takes ∧ (s.serve (d.context m) r).response.isFailure = false

/-- A run on which no request gives the name of the first account away leads to the state. -/
inductive Reserved (d : Setup) : State → Prop
  | started {s : State} (h : s.StartsFrom d .fresh) : Reserved d s
  | restarted {s s' : State} (hs : Reserved d s) (h : s'.StartsFrom d s.fleet.store) :
    Reserved d s'
  | next {s : State} (hs : Reserved d s) {e : Event} (h : ¬s.TakesName d e) :
    Reserved d (s.next d e)

theorem Reserved.reachable (h : Reserved d s) : Reachable d s := by
  induction h with
  | started h => exact .started h
  | restarted _ h ih => exact .restarted ih h
  | next _ _ ih => exact ih.next _

/-- Nobody but the first account has its name. -/
def NameFree (s : State) : Prop :=
  ∀ u ∈ s.fleet.store.users, u.username = Bootstrap.rootName → u.id = Bootstrap.rootId

theorem StartsFrom.nameFree {store : Store} (h : s.StartsFrom d store)
    (hstore : ∀ u ∈ store.users, u.username = Bootstrap.rootName → u.id = Bootstrap.rootId) :
    s.NameFree := by
  obtain ⟨m, draws, password, after, link, hroot, rfl⟩ := h.eq
  rcases Bootstrap.ensureRoot_eq_ok hroot with ⟨u, -, -, rfl⟩ | ⟨-, -, hash, u, -, hcall⟩
  · exact hstore
  · obtain ⟨-, -, -, -, rfl⟩ := Store.addUser_eq_ok_iff.mp hcall
    intro v hv hname
    rcases Table.mem_insert.mp hv with rfl | hv
    · rfl
    · exact hstore v hv hname

theorem next_nameFree {e : Event} (hs : s.fleet.store.Sound) (hfree : s.NameFree)
    (h : ¬s.TakesName d e) : (s.next d e).NameFree := by
  intro v hv hname
  rcases next_cases d hs e with ⟨m, r, sender, op, a, rfl, hasked, hsuccess, heffect⟩ | halike
  · -- Another account has the name only if it had it before or the operation gave it.
    by_contra hid
    have htakes (hop : op.Takes) : False := h ⟨m, r, sender, op, rfl, hasked, hop, hsuccess⟩
    rcases heffect.user_cases hv with ⟨hold, -⟩ | ⟨request, hash, rfl, -, -, hrow⟩ |
      ⟨request, hash, rfl, -, u, hu, huid, hrow⟩
    · exact hid (hfree v hold hname)
    · rw [hrow] at hname
      exact htakes (.create hname)
    · cases hrequest : request.username with
      | some name =>
        rw [hrow, Store.UserChanges.apply, hrequest] at hname
        exact htakes (.edit hid (hrequest.trans (congrArg some hname)))
      | none =>
        rw [hrow, Store.UserChanges.apply, hrequest] at hname
        exact hid (huid ▸ hfree u hu hname)
  · rw [halike.store] at hv
    exact hfree v hv hname

theorem Reserved.nameFree (h : Reserved d s) : s.NameFree := by
  induction h with
  | started h => exact h.nameFree fun u hu => absurd hu List.not_mem_nil
  | restarted _ h ih => exact h.nameFree ih
  | next hs h ih => exact next_nameFree hs.reachable.sound ih h

theorem not_reserved {u : User} (hid : s.fleet.store.user? Bootstrap.rootId = none)
    (hname : s.fleet.store.userNamed? Bootstrap.rootName = some u) : ¬Reserved d s := by
  intro h
  obtain ⟨hu, huname⟩ := Store.mem_of_userNamed? hname
  exact Table.has_eq_false_iff.mp (Table.has_of_find?_eq_none hid) u hu (h.nameFree u hu huname)

/-! ## Without the first account -/

/-- The first account has deleted itself, and another one is all there is. -/
def abandoned : State where
  fleet := {
    store := { Store.fresh with
      users := [alice]
      userGrants := [⟨alice.id, Store.userAuthority.id⟩] }
    control := (first .refused).fleet.control }
  registry := .empty

/-- The account that is left has given the name to a new one. -/
def usurped : State where
  fleet := {
    store := { Store.fresh with
      users := [alice, ⟨⟨2, by decide⟩, "root", true, "password2", ⟨0, 0⟩⟩]
      userGrants := [⟨alice.id, Store.userAuthority.id⟩, ⟨⟨2, by decide⟩, Store.userAuthority.id⟩] }
    control := (first .refused).fleet.control }
  registry := .empty

theorem reachable_abandoned : Reachable .plain abandoned := by
  have hroute : Route.ofPath? "/api/user/0" = some (.resource (.user "0")) := rfl
  have hop : operation? (bare .delete "/api/user/0") = some (.deleteUser .zero) :=
    operation?_withId (by decide) hroute rfl
  have hnext : (having alice).next .plain (.request .epoch
      (byRoot (Setup.plain.context .epoch) (bare .delete "/api/user/0"))) = abandoned :=
    (next_byRoot rfl hop).trans rfl
  rw [← hnext]
  exact reachable_alice.next _

theorem reachable_usurped : Reachable .plain usurped := by
  let c := Setup.plain.context .epoch
  let create := posting "/api/user" (NewUser.mk "root" "password2" true)
  let token := Token.issue c.config.secret c.config.tokenHours c.seconds alice.id alice.username
    [Store.userAuthority.name]
  have hop : operation? create = some (.createUser ⟨"root", "password2", true⟩) :=
    operation?_withBody rfl rfl ⟨by decide, trivial, trivial, trivial, trivial⟩ (by decide)
  have hasked : abandoned.asked c (create.bearing token) =
      some (⟨alice.id, alice.username, [Store.userAuthority.name]⟩, _) :=
    asked_eq_some_iff.mpr
      ⟨Sender.identify_bearing rfl rfl _ _ create, (operation?_bearing _ _).trans hop⟩
  have hnext : abandoned.next .plain (.request .epoch (create.bearing token)) = usurped :=
    (next_of_asked hasked).trans rfl
  rw [← hnext]
  exact reachable_abandoned.next _

/-! ## What a start comes to -/

/-- Whatever has happened, a start leaves the first account alone if it is there, and adds
it if it is missing and its name is free.  It fails if the account is missing and another
one has its name, which takes a request that has given the name away. -/
theorem bootstraps_unless_taken (hs : Reachable d s) (hlow : 4 ≤ cost.val)
    (hhigh : cost.val ≤ 31) :
    let store := s.fleet.store
    let outcome := Bootstrap.ensureRoot .blowfish cost now chance store
    (∀ u, store.user? Bootstrap.rootId = some u → outcome = .ok (none, store)) ∧
    (store.user? Bootstrap.rootId = none → store.userNamed? Bootstrap.rootName = none →
      ∃ hash after,
        Password.Scheme.blowfish.hash cost chance.salt (Bootstrap.passwordOf chance) = .ok hash ∧
        outcome = .ok (some (Bootstrap.passwordOf chance), after) ∧
        Bootstrap.Founds hash now store after) ∧
    ∀ u, store.user? Bootstrap.rootId = none → store.userNamed? Bootstrap.rootName = some u →
      outcome = .error (.store .duplicate) ∧ ¬Reserved d s := by
  intro store outcome
  have hcost : Password.isCost cost = true := by simp [Password.isCost, hlow, hhigh]
  obtain ⟨hash, hhash⟩ := Password.exists_hash hcost chance.salt (Bootstrap.passwordOf chance)
  refine ⟨fun u hid => Bootstrap.ensureRoot_of_some hid, fun hid hname => ?_,
    fun u hid hname => ⟨Bootstrap.ensureRoot_of_taken hid hname hhash, not_reserved hid hname⟩⟩
  obtain ⟨after, hoked, hfounds⟩ := Bootstrap.ensureRoot_of_free hs.sound hid hname hhash
  exact ⟨hash, after, hhash, hoked, hfounds⟩

def lowestCost : Cost := ⟨4, by decide⟩

/-- A start works out while the name is free and fails once it is taken. -/
theorem abandoned_bootstraps :
    (∃ hash after, Bootstrap.ensureRoot .blowfish lowestCost ⟨1, 0⟩ ⟨[], []⟩ abandoned.fleet.store =
        .ok (some "", after) ∧ Bootstrap.Founds hash ⟨1, 0⟩ abandoned.fleet.store after) ∧
      Bootstrap.ensureRoot .blowfish lowestCost ⟨1, 0⟩ ⟨[], []⟩ usurped.fleet.store =
        .error (.store .duplicate) ∧ ¬Reserved .plain usurped := by
  have hlow : 4 ≤ lowestCost.val := by decide
  have hhigh : lowestCost.val ≤ 31 := by decide
  constructor
  · obtain ⟨-, hfree, -⟩ := bootstraps_unless_taken reachable_abandoned hlow hhigh
    obtain ⟨hash, after, -, hok, hfounds⟩ := hfree rfl rfl
    exact ⟨hash, after, hok, hfounds⟩
  · obtain ⟨-, -, htaken⟩ := bootstraps_unless_taken reachable_usurped hlow hhigh
    exact htaken _ rfl rfl

/-- Not every restart makes sure of the first account. -/
theorem not_always_bootstraps :
    ¬∀ (d : Setup) (s : State) (cost : Cost) (now : Instant) (chance : Bootstrap.Chance),
      Reachable d s → 4 ≤ cost.val → cost.val ≤ 31 →
      ∃ password after, Bootstrap.ensureRoot .blowfish cost now chance s.fleet.store =
        .ok (password, after) := by
  intro h
  obtain ⟨password, after, hok⟩ :=
    h .plain usurped lowestCost ⟨1, 0⟩ ⟨[], []⟩ reachable_usurped (by decide) (by decide)
  have hcost : Password.isCost lowestCost = true := by decide
  obtain ⟨hash, hhash⟩ := Password.exists_hash hcost [] (Bootstrap.passwordOf ⟨[], []⟩)
  rw [Bootstrap.ensureRoot_of_taken rfl rfl hhash] at hok
  cases hok

end State
end Service
end BotFleet
