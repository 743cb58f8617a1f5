import BotFleet.Proofs.Registry
import BotFleet.Proofs.Service.Gate
import BotFleet.Proofs.Store.Rights

/-
Which listings change, and who is told.

`Fleet.listing` is what a client gets that asks for the path of a topic.  An operation
names the change that it makes, and the rules of `Effect` show rule by rule that it
alters no listing but the one which that change makes stale.  There is one exception.
An account that is deleted takes its memberships with it, and so the groups are
listed differently, yet only the watchers of the accounts hear of it.
-/

namespace BotFleet
namespace Service

open Http (Request)
open Json (Message)

namespace Fleet

/-- The body of the answer to those who ask for the path of a topic. -/
def listing (f : Fleet) : Topic → Json
  | .users => .list (f.store.users.map Message.toJson)
  | .groups => .list ((f.store.groups.map f.store.groupView).map Message.toJson)
  | .instances => .list ((f.store.instances.map f.view).map InstanceView.toJson)

/-- An account that is being deleted is a member of a group, so a topic is altered
that is not the one of accounts. -/
def Cascades (f : Fleet) (op : Operation) (t : Topic) : Prop :=
  t = .groups ∧ ∃ user group, op = .deleteUser user ∧ ⟨group, user⟩ ∈ f.store.memberships

variable {f f' : Fleet}

theorem Alike.listing (h : Alike f f') (t : Topic) : f'.listing t = f.listing t := by
  have hview : f'.view = f.view := by
    funext i
    rw [view, view, h.isRunning]
  cases t <;> simp only [Fleet.listing, h.store, hview]

theorem listing_groups_congr (hgroups : f'.store.groups = f.store.groups)
    (hmembers : f'.store.memberships = f.store.memberships) :
    f'.listing .groups = f.listing .groups := by
  have hview : f'.store.groupView = f.store.groupView := by
    funext g
    rw [Store.groupView, Store.groupView, Store.membersOf, Store.membersOf, hmembers]
  rw [listing, listing, hgroups, hview]

/-! ## Accounts that are members -/

theorem toJson_groupView (v : GroupView) :
    Message.toJson v = .record
      [("id", .int v.id.val), ("name", .text v.name),
       ("members", .list (v.members.map fun id => .int id.val))] := rfl

/-- Groups are listed differently if one of them lists its members differently. -/
theorem members_eq_of_listing (hgroups : f'.store.groups = f.store.groups)
    (h : f'.listing .groups = f.listing .groups) {g : Group} (hg : g ∈ f.store.groups) :
    f'.store.membersOf g.id = f.store.membersOf g.id := by
  rw [listing, listing, hgroups, List.map_map, List.map_map] at h
  injection h with h
  have hview := List.map_inj_left.mp h g hg
  simp only [Function.comp_apply, toJson_groupView, Store.groupView] at hview
  injection hview with hfields
  simp only [List.cons.injEq, Prod.mk.injEq, Json.list.injEq, true_and, and_true] at hfields
  refine List.map_injective_iff.mpr ?_ hfields
  intro a b hab
  injection hab with hval
  exact Ranged.ext hval

/-- With its memberships gone, an account that was a member is not listed any more. -/
theorem listing_deleteUser_ne (hs : f.store.Sound) {group user : Id}
    (hm : ⟨group, user⟩ ∈ f.store.memberships) (hstore : f'.store = (f.store.deleteUser user).2) :
    f'.listing .groups ≠ f.listing .groups := by
  intro h
  obtain ⟨g, hg, rfl⟩ := Table.has_iff.mp (hs.membership_refers _ hm).1
  have hmembers := members_eq_of_listing (by rw [hstore]; rfl) h hg
  have hmem : user ∈ f'.store.membersOf g.id := by
    rw [hmembers]
    exact Store.mem_membersOf.mpr hm
  rw [Store.mem_membersOf, hstore] at hmem
  simp [Store.deleteUser] at hmem

/-- Nothing about the groups changes with an account that is in none of them. -/
theorem listing_deleteUser_eq {user : Id} (h : ∀ group, ⟨group, user⟩ ∉ f.store.memberships)
    (hstore : f'.store = (f.store.deleteUser user).2) :
    f'.listing .groups = f.listing .groups := by
  refine listing_groups_congr (by rw [hstore]; rfl) ?_
  rw [hstore]
  refine List.filter_eq_self.mpr fun m hm => decide_eq_true ?_
  rintro rfl
  exact h m.group hm

end Fleet

/-- An operation alters no listing but those that its change makes stale, apart from the
groups of an account that it deletes. -/
theorem Effect.listing {c : Context} {sender : Sender} {f f' : Fleet} {op : Operation} {a : Answer}
    (h : Effect c sender f op a f') (t : Topic) :
    f'.listing t = f.listing t ∨ (∃ change, a.change = some change ∧ t ∈ change.topics) ∨
      f.Cascades op t := by
  cases h with
  | createUser _ _ _ _ hcall =>
    obtain ⟨id, -, -, -, -, -, rfl⟩ := Store.createUser_eq_ok hcall
    cases t with
    | users => exact .inr (.inl ⟨.users, rfl, List.mem_singleton_self _⟩)
    | groups | instances => exact .inl rfl
  | editUser _ _ hcall =>
    obtain ⟨u, -, -, -, rfl⟩ := Store.updateUser_eq_ok_some hcall
    cases t with
    | users => exact .inr (.inl ⟨.users, rfl, List.mem_singleton_self _⟩)
    | groups | instances => exact .inl rfl
  | @deleteUser id =>
    cases t with
    | users => exact .inr (.inl ⟨.users, rfl, List.mem_singleton_self _⟩)
    | groups =>
      by_cases hm : ∃ group, ⟨group, id⟩ ∈ f.store.memberships
      · obtain ⟨group, hm⟩ := hm
        exact .inr (.inr ⟨rfl, id, group, rfl, hm⟩)
      · exact .inl (Fleet.listing_deleteUser_eq (not_exists.mp hm) rfl)
    | instances => exact .inl rfl
  | grantUser hcall =>
    obtain ⟨-, -, rfl⟩ := Store.grantUser_eq_ok hcall
    exact .inl (by cases t <;> rfl)
  | revokeUser => exact .inl (by cases t <;> rfl)
  | createGroup _ hcall =>
    obtain ⟨id, -, -, -, -, rfl⟩ := Store.createGroup_eq_ok hcall
    cases t with
    | groups => exact .inr (.inl ⟨.groups, rfl, List.mem_singleton_self _⟩)
    | users | instances => exact .inl rfl
  | renameGroup _ hcall =>
    obtain ⟨g, -, -, -, rfl⟩ := Store.renameGroup_eq_ok_some hcall
    cases t with
    | groups => exact .inr (.inl ⟨.groups, rfl, List.mem_singleton_self _⟩)
    | users | instances => exact .inl rfl
  | deleteGroup =>
    cases t with
    | groups => exact .inr (.inl ⟨.groups, rfl, List.mem_singleton_self _⟩)
    | users | instances => exact .inl rfl
  | addMember hcall =>
    obtain ⟨-, -, -, rfl⟩ := Store.addMember_eq_ok hcall
    cases t with
    | groups => exact .inr (.inl ⟨.groupMembers, rfl, List.mem_singleton_self _⟩)
    | users | instances => exact .inl rfl
  | @stayMember group user _ hcall =>
    obtain ⟨-, -, hstays, rfl⟩ := Store.addMember_eq_ok hcall
    have hm : ⟨group, user⟩ ∈ f.store.memberships := by simpa using hstays
    cases t with
    | groups => exact .inl (Fleet.listing_groups_congr rfl (if_pos hm))
    | users | instances => exact .inl rfl
  | removeMember =>
    cases t with
    | groups => exact .inr (.inl ⟨.groupMembers, rfl, List.mem_singleton_self _⟩)
    | users | instances => exact .inl rfl
  | grantGroup hcall =>
    obtain ⟨-, -, rfl⟩ := Store.grantGroup_eq_ok hcall
    exact .inl (by cases t <;> rfl)
  | revokeGroup => exact .inl (by cases t <;> rfl)
  | createInstance _ hcall =>
    obtain ⟨id, -, -, -, rfl⟩ := Store.createInstance_eq_ok hcall
    cases t with
    | instances => exact .inr (.inl ⟨.instances, rfl, List.mem_singleton_self _⟩)
    | users | groups => exact .inl rfl
  | editInstance _ hcall =>
    obtain ⟨i, -, -, rfl⟩ := Store.updateInstance_eq_some hcall
    cases t with
    | instances => exact .inr (.inl ⟨.instances, rfl, List.mem_singleton_self _⟩)
    | users | groups => exact .inl rfl
  | deleteInstance | dropInstance =>
    cases t with
    | instances => exact .inr (.inl ⟨.instances, rfl, List.mem_singleton_self _⟩)
    | users | groups => exact .inl rfl
  | startInstance | stopInstance =>
    cases t with
    | instances => exact .inr (.inl ⟨.instanceState, rfl, List.mem_singleton_self _⟩)
    | users | groups => exact .inl rfl
  | showMe | listUsers | showUser | listGroups | showGroup | listInstances | showInstance
  | keepStarted | keepStopped | listAuthorities => exact .inl rfl

theorem Users.run_delete_of_has {f : Fleet} {id : Id} (h : Table.has id f.store.users = true) :
    (Users.delete id).run f =
      (.ok (.done (some .users)), { f with store := (f.store.deleteUser id).2 }) := by
  rw [Users.delete, Action.run_bind, Action.run_write]
  have hfound : (f.store.deleteUser id).1 = true := h
  simp only [hfound, if_true, Action.run_pure]

namespace State

variable {c : Context} {d : Setup} {s : State}

def resourceOf : Topic → Resource
  | .users => .users
  | .groups => .groups
  | .instances => .instances

/-- Whoever is let in and asks for the path of a topic gets the listing. -/
theorem serve_listing {r : Request} {sender : Sender} {t : Topic} (hverb : r.verb = .get)
    (hpath : r.path = t.path)
    (hidentify : Sender.identify c s.fleet.store r.headers r.target = .ok sender) :
    (s.serve c r).response.status = 200 ∧
      (s.serve c r).response.content = .json (s.fleet.listing t) ∧ (s.serve c r).state = s := by
  have hroute : Route.ofPath? r.path = some (.resource (resourceOf t)) := by
    rw [hpath]
    cases t <;> rfl
  rw [serve_of_identify (by rw [hverb]; decide) hroute (by simp) hidentify, finish, hverb]
  cases t <;> simp only [proceed, resourceOf, hverb] <;> exact ⟨rfl, rfl, rfl⟩

/-- A change that an operation names reaches the watchers of the listing. -/
theorem told_announce {change : Option Change} {named : Change} {t : Topic} {x : Session}
    {registry : Registry} (hchange : change = some named) (ht : t ∈ named.topics)
    (hx : x ∈ registry.sessions) (htopic : t.path ∈ x.topics)
    (hlive : registry.isReceiving x = true) :
    registry.Told (announce change registry).registry x t.path := by
  rw [hchange]
  exact Registry.told_notifyChange ht hx htopic hlive

/-- An account that is a member of a group is deleted with its memberships, and nobody
is told of the groups. -/
theorem next_of_cascades {m : Moment} {r : Request} {sender : Sender} {op : Operation} {t : Topic}
    (hs : s.fleet.store.Sound) (hasked : s.asked (d.context m) r = some (sender, op))
    (hcascade : s.fleet.Cascades op t) :
    (s.next d (.request m r)).fleet.listing t ≠ s.fleet.listing t ∧
      ∀ x, ¬s.registry.Told (s.next d (.request m r)).registry x t.path := by
  obtain ⟨rfl, user, group, rfl, hm⟩ := hcascade
  have hrun := Users.run_delete_of_has (hs.membership_refers _ hm).2
  have hnext : s.next d (.request m r) =
      ⟨{ s.fleet with store := (s.fleet.store.deleteUser user).2 },
        (s.registry.notifyChange .users).registry⟩ := by
    rw [next_of_asked hasked]
    exact congrArg Served.state (perform_of_ok hrun)
  rw [hnext]
  refine ⟨Fleet.listing_deleteUser_ne hs hm rfl, fun x => ?_⟩
  exact Registry.not_told_notifyChange (by decide)

/-! ## A group of the first account -/

/-- The store with a group in it that has no members. -/
def groupedStore : Store := { firstStore with groups := [⟨Table.firstId, "team"⟩] }

/-- The first account is the only member of a group, and a session watches the groups. -/
def watched : State where
  fleet := {
    store := { groupedStore with memberships := [⟨Table.firstId, .zero⟩] }
    control := (first .refused).fleet.control }
  registry := ⟨[⟨"a", [Topic.groups.path], 0⟩], [⟨[.ok], true⟩]⟩

theorem reachable_watched : Reachable .plain watched := by
  let c := Setup.plain.context .epoch
  let create := posting "/api/group" (GroupRequest.mk "team")
  let join := bare .put "/api/group/1/member/0"
  let connect : Request :=
    ⟨.get, ⟨"/socket", none⟩,
      [⟨"connection", "Upgrade"⟩, ⟨"upgrade", "websocket"⟩, ⟨"sec-websocket-key", "x"⟩,
       ⟨"sec-websocket-version", "13"⟩], "", true⟩
  let grouped : State := ⟨⟨groupedStore, (first .refused).fleet.control⟩, .empty⟩
  let joined : State := ⟨watched.fleet, .empty⟩
  let connected : State := ⟨watched.fleet, ⟨[⟨"a", [], 0⟩], [.fresh]⟩⟩
  have hcreate : (first .refused).next .plain (.request .epoch (byRoot c create)) = grouped := by
    have hop : operation? create = some (.createGroup ⟨"team"⟩) :=
      operation?_withBody rfl rfl ⟨by decide, trivial, trivial⟩ (by decide)
    exact (next_byRoot rfl hop).trans rfl
  have hjoin : grouped.next .plain (.request .epoch (byRoot c join)) = joined := by
    have hroute : Route.ofPath? "/api/group/1/member/0" = some (.resource (.groupMember "1" "0")) :=
      rfl
    have hop : operation? join = some (.addMember Table.firstId .zero) :=
      operation?_withIds (by decide) hroute rfl
    exact (next_byRoot rfl hop).trans rfl
  have hsocket : Route.ofPath? "/socket" = some .socket := rfl
  have hconnect : joined.next .plain (.request .epoch (byRoot c connect)) = connected :=
    (next_socket_byRoot (r := connect) rfl rfl hsocket rfl).trans rfl
  have hregistry : (Socket.step "a" 0 (.text "SUBSCRIBE\n\n/api/group") connected.registry).1 =
      watched.registry := by
    rfl
  have hsubscribe : connected.next .plain (.received "a" (.text "SUBSCRIBE\n\n/api/group")) =
      watched :=
    congrArg (State.mk watched.fleet) hregistry
  rw [← hsubscribe, ← hconnect, ← hjoin, ← hcreate]
  exact ((((reachable_first .refused).next _).next _).next _).next _

theorem asked_watched {r : Request} {op : Operation} (h : operation? r = some op) :
    watched.asked (Setup.plain.context .epoch) (byRoot (Setup.plain.context .epoch) r) =
      some (root, op) :=
  asked_eq_some_iff.mpr ⟨identify_byRoot rfl r, (operation?_bearing _ r).trans h⟩

/-- The request of the first account to delete itself. -/
def leave : Request := byRoot (Setup.plain.context .epoch) (bare .delete "/api/user/0")

theorem asked_leave :
    watched.asked (Setup.plain.context .epoch) leave = some (root, .deleteUser .zero) := by
  have hroute : Route.ofPath? "/api/user/0" = some (.resource (.user "0")) := rfl
  exact asked_watched (operation?_withId (by decide) hroute rfl)

theorem cascades_leave : watched.fleet.Cascades (.deleteUser .zero) .groups :=
  ⟨rfl, .zero, Table.firstId, rfl, List.mem_singleton_self _⟩

/-! ## Who is told -/

/-- Whoever watches a listing is told when a request alters it, unless the request
deletes an account that is a member of a group and the listing is that of the groups.
Then the listing is altered and nobody is told. -/
theorem told_unless_cascades {m : Moment} {r : Request} {t : Topic} (hs : Reachable d s) :
    ((∀ sender op, s.asked (d.context m) r = some (sender, op) → ¬s.fleet.Cascades op t) →
      (s.next d (.request m r)).fleet.listing t ≠ s.fleet.listing t →
      ∀ x ∈ s.registry.sessions, t.path ∈ x.topics → s.registry.isReceiving x = true →
        s.registry.Told (s.next d (.request m r)).registry x t.path) ∧
    (∀ sender op, s.asked (d.context m) r = some (sender, op) → s.fleet.Cascades op t →
      (s.next d (.request m r)).fleet.listing t ≠ s.fleet.listing t ∧
        ∀ x, ¬s.registry.Told (s.next d (.request m r)).registry x t.path) := by
  refine ⟨?_, fun sender op hasked hcascade => next_of_cascades hs.sound hasked hcascade⟩
  intro hcascade hne x hx htopic hlive
  rcases next_fleet d hs.sound (.request m r) with
    ⟨m', r', sender, op, a, heq, hasked, heffect, hregistry⟩ | halike
  · cases heq
    rcases heffect.listing t with hsame | ⟨change, hchange, ht⟩ | hc
    · exact absurd hsame hne
    · rw [hregistry]
      exact told_announce hchange ht hx htopic hlive
    · exact absurd hc (hcascade sender op hasked)
  · exact absurd (halike.listing t) hne

/-- The watcher of the groups is told when the group is deleted, and not when its only
member is. -/
theorem watched_told_unless_cascades :
    let dissolve := byRoot (Setup.plain.context .epoch) (bare .delete "/api/group/1")
    (∀ x ∈ watched.registry.sessions,
      watched.registry.Told (watched.next .plain (.request .epoch dissolve)).registry x
        Topic.groups.path) ∧
    (watched.next .plain (.request .epoch leave)).fleet.listing .groups ≠
        watched.fleet.listing .groups ∧
      ∀ x, ¬watched.registry.Told (watched.next .plain (.request .epoch leave)).registry x
        Topic.groups.path := by
  intro dissolve
  have hasked : watched.asked (Setup.plain.context .epoch) dissolve =
      some (root, .deleteGroup Table.firstId) := by
    have hroute : Route.ofPath? "/api/group/1" = some (.resource (.group "1")) := rfl
    exact asked_watched (operation?_withId (by decide) hroute rfl)
  refine ⟨?_, (told_unless_cascades reachable_watched).2 root _ asked_leave cascades_leave⟩
  intro x hx
  refine (told_unless_cascades (t := .groups) reachable_watched).1 ?_ ?_ x hx ?_ ?_
  · rintro sender op hop ⟨-, user, group, rfl, -⟩
    rw [hasked] at hop
    cases hop
  · rw [next_of_asked hasked]
    intro h
    cases h
  · cases List.mem_singleton.mp hx
    exact List.mem_singleton_self _
  · cases List.mem_singleton.mp hx
    rfl

/-- Not everybody is told whose listing is altered by a request that was let in. -/
theorem not_always_told :
    ¬∀ (d : Setup) (s : State) (m : Moment) (r : Request) (t : Topic), Reachable d s →
      (s.asked (d.context m) r).isSome →
      (s.next d (.request m r)).fleet.listing t ≠ s.fleet.listing t →
      ∀ x ∈ s.registry.sessions, t.path ∈ x.topics → s.registry.isReceiving x = true →
        s.registry.Told (s.next d (.request m r)).registry x t.path := by
  intro h
  obtain ⟨hne, hnobody⟩ :=
    next_of_cascades (m := .epoch) reachable_watched.sound asked_leave cascades_leave
  refine hnobody ⟨"a", [Topic.groups.path], 0⟩ ?_
  refine h .plain watched .epoch leave .groups reachable_watched ?_ hne _ ?_ ?_ ?_
  · rw [asked_leave]
    rfl
  · exact List.mem_singleton_self _
  · exact List.mem_singleton_self _
  · rfl

end State
end Service
end BotFleet
