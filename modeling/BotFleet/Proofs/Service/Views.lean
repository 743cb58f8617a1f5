import Mathlib.Data.List.Sort
import BotFleet.Proofs.Service.Listing
import BotFleet.Proofs.Service.Staleness

/-
Listings and what they list.

A listing and the answer about one row are put together apart from each other, from the
tables, the memberships and the record of what is running.  Both show what
`Fleet.entry?` finds: in a sound store an entry of the listing is found by the
identifier that it shows, and by no other.  The theorem that puts this together for
whatever can be reached is `listings_agree_with_rows`.
-/

namespace BotFleet

open Http (Request)
open Json (Message)

/-! ## Members -/

theorem Store.sorted_sortIds (ids : List Id) :
    (sortIds ids).Pairwise fun a b => a.val ≤ b.val :=
  List.pairwise_mergeSort' (Order.Preimage Subtype.val (· ≤ ·)) ids

/-- No membership is held twice, and so no member is listed twice. -/
theorem Store.Sound.increasing_membersOf {s : Store} (h : s.Sound) (group : Id) :
    (s.membersOf group).Pairwise (· < ·) := by
  have hnodup : (s.membersOf group).Nodup := by
    refine (List.mergeSort_perm _ _).nodup_iff.mpr ?_
    refine (h.memberships.filter _).map_on fun m hm m' hm' huser => ?_
    have hgroup : m.group = group := beq_iff_eq.mp (List.mem_filter.mp hm).2
    have hgroup' : m'.group = group := beq_iff_eq.mp (List.mem_filter.mp hm').2
    show (⟨m.group, m.user⟩ : Membership) = ⟨m'.group, m'.user⟩
    rw [hgroup, hgroup', huser]
  refine ((sorted_sortIds _).and hnodup).imp fun {a b} hab => ?_
  have hne : a.val ≠ b.val := fun he => hab.2 (Ranged.ext he)
  show a.val < b.val
  have hle := hab.1
  omega

/-! ## Entries -/

section Rows

variable {α : Type} [Row α] {rows : List α} {entry : α → Json}

/-- What is shown of a row has the identifier of the row. -/
def ShowsKey (entry : α → Json) : Prop :=
  ∀ r, (entry r).field? "id" = some (.int (Row.key r).val)

theorem ShowsKey.find?_iff (hkey : ShowsKey entry) (hs : Table.Sorted rows) {id : Id} {e : Json} :
    (Table.find? id rows).map entry = some e ↔
      e ∈ rows.map entry ∧ e.field? "id" = some (.int id.val) := by
  rw [Option.map_eq_some_iff, List.mem_map]
  constructor
  · intro h
    obtain ⟨r, hr, rfl⟩ := h
    obtain ⟨hmem, rfl⟩ := (Table.find?_eq_some_iff hs).mp hr
    exact ⟨⟨r, hmem, rfl⟩, hkey r⟩
  · intro h
    obtain ⟨⟨r, hmem, rfl⟩, hid⟩ := h
    have hval : (Row.key r).val = id.val := by
      rw [hkey] at hid
      injection hid with hid
      injection hid
    exact ⟨r, (Table.find?_eq_some_iff hs).mpr ⟨hmem, Ranged.ext hval⟩, rfl⟩

theorem ShowsKey.map_field? (hkey : ShowsKey entry) :
    (rows.map entry).map (·.field? "id") =
      (rows.map Row.key).map fun id => some (.int id.val) := by
  rw [List.map_map, List.map_map]
  exact List.map_congr_left fun r _ => hkey r

theorem Table.Sorted.increasing (hs : Table.Sorted rows) : (rows.map Row.key).Pairwise (· < ·) :=
  List.pairwise_map.mpr hs

end Rows

namespace Service

namespace Fleet

variable {f : Fleet} {t : Topic}

/-- What the listing of a topic has, one entry for each row. -/
def entries (f : Fleet) : Topic → List Json
  | .users => f.store.users.map Message.toJson
  | .groups => f.store.groups.map fun g => Message.toJson (f.store.groupView g)
  | .instances => f.store.instances.map fun i => (f.view i).toJson

/-- What is shown of the row with an identifier. -/
def entry? (f : Fleet) (t : Topic) (id : Id) : Option Json :=
  match t with
  | .users => (f.store.user? id).map Message.toJson
  | .groups => (f.store.group? id).map fun g => Message.toJson (f.store.groupView g)
  | .instances => (f.store.instance? id).map fun i => (f.view i).toJson

theorem listing_eq (f : Fleet) (t : Topic) : f.listing t = .list (f.entries t) := by
  cases t <;> simp only [listing, entries, List.map_map] <;> rfl

theorem showsKey_user : ShowsKey (Message.toJson : User → Json) := fun _ => rfl

theorem showsKey_group (f : Fleet) : ShowsKey fun g => Message.toJson (f.store.groupView g) :=
  fun _ => rfl

theorem showsKey_instance (f : Fleet) : ShowsKey fun i => (f.view i).toJson := fun _ => rfl

theorem entry?_eq_some_iff (hs : f.store.Sound) {id : Id} {e : Json} :
    f.entry? t id = some e ↔ e ∈ f.entries t ∧ e.field? "id" = some (.int id.val) := by
  cases t with
  | users => exact showsKey_user.find?_iff hs.users
  | groups => exact f.showsKey_group.find?_iff hs.groups
  | instances => exact f.showsKey_instance.find?_iff hs.instances

theorem entry?_eq_none_iff (hs : f.store.Sound) {id : Id} :
    f.entry? t id = none ↔ ∀ e ∈ f.entries t, e.field? "id" ≠ some (.int id.val) := by
  simp only [Option.eq_none_iff_forall_ne_some, ne_eq, entry?_eq_some_iff hs, not_and]

/-- The listings are in order and fit each other and the record of what is running. -/
structure Coherent (f : Fleet) : Prop where
  increasing : ∀ t, ∃ ids : List Id, ids.Pairwise (· < ·) ∧
    (f.entries t).map (·.field? "id") = ids.map fun id => some (.int id.val)
  members : ∀ g ∈ f.entries .groups, ∃ members : List Id,
    g.field? "members" = some (.list (members.map fun id => .int id.val)) ∧
      members.Pairwise (· < ·) ∧
      ∀ id ∈ members, ∃ u ∈ f.entries .users, u.field? "id" = some (.int id.val)
  running : ∀ i ∈ f.entries .instances, ∃ (id : Id) (running : Bool),
    i.field? "id" = some (.int id.val) ∧ i.field? "running" = some (.flag running) ∧
      (running = true ↔ id ∈ f.control.running)

theorem coherent (hs : f.store.Sound) : f.Coherent where
  increasing t := by
    cases t with
    | users => exact ⟨_, hs.users.increasing, showsKey_user.map_field?⟩
    | groups => exact ⟨_, hs.groups.increasing, f.showsKey_group.map_field?⟩
    | instances => exact ⟨_, hs.instances.increasing, f.showsKey_instance.map_field?⟩
  members e he := by
    obtain ⟨g, -, rfl⟩ := List.mem_map.mp he
    refine ⟨f.store.membersOf g.id, rfl, hs.increasing_membersOf g.id, fun id hid => ?_⟩
    have hhas := (hs.membership_refers _ (Store.mem_membersOf.mp hid)).2
    obtain ⟨u, hu, rfl⟩ := Table.has_iff.mp hhas
    exact ⟨Message.toJson u, List.mem_map_of_mem hu, showsKey_user u⟩
  running e he := by
    obtain ⟨i, -, rfl⟩ := List.mem_map.mp he
    exact ⟨i.id, f.isRunning i.id, rfl, rfl, Daemon.Control.isRunning_iff⟩

end Fleet

/-! ## Paths -/

theorem segments_of_toList {path : String} {parts : List String} (hparts : parts ≠ [])
    (hslash : ∀ part ∈ parts, '/' ∉ part.toList)
    (h : path.toList = ['/'].intercalate (parts.map String.toList)) : segments path = parts := by
  have hsplit : path.toList.splitOn '/' = parts.map String.toList := by
    rw [h]
    refine List.splitOn_intercalate '/' ?_ (by simpa using hparts)
    intro part hpart
    obtain ⟨p, hp, rfl⟩ := List.mem_map.mp hpart
    exact hslash p hp
  rw [segments, hsplit, List.map_map]
  refine (List.map_congr_left fun p _ => ?_).trans (List.map_id _)
  exact String.ofList_toList

namespace State

variable {c : Context} {d : Setup} {s : State} {t : Topic} {id : Id}

/-- One row of a listing, by what stands for its identifier in the path. -/
def rowOf : Topic → String → Resource
  | .users => .user
  | .groups => .group
  | .instances => .inst

/-- The path names the row of a listing that has the identifier. -/
def LeadsTo (path : String) (t : Topic) (id : Id) : Prop :=
  ∃ raw, Route.ofPath? path = some (.resource (rowOf t raw)) ∧ oneId raw = .ok id

/-- The path of a listing goes on with the identifier. -/
theorem leadsTo (t : Topic) (id : Id) : LeadsTo (t.path ++ "/" ++ Numeral.ofInt id.val) t id := by
  refine ⟨Numeral.ofInt id.val, ?_, oneId_ofInt id⟩
  have hslash : '/' ∉ (Numeral.ofInt id.val).toList :=
    Numeral.not_mem_ofInt (by decide) (by decide)
  have hempty : (Numeral.ofInt id.val).isEmpty = false := by
    simpa using Numeral.ofInt_ne_empty id.val
  have hsegments : segments (t.path ++ "/" ++ Numeral.ofInt id.val) =
      (rowOf t (Numeral.ofInt id.val)).parts := by
    refine segments_of_toList ?_ ?_ ?_
    · cases t <;> simp [rowOf, Resource.parts]
    · cases t <;> simp [rowOf, Resource.parts, hslash]
    · cases t <;> simp [rowOf, Resource.parts, Topic.path, List.intercalate]
  rw [Route.ofPath?, hsegments]
  cases t <;> simp [rowOf, Resource.parts, Route.ofSegments?, Resource.ofSegments?, hempty]

/-! ## Answers -/

/-- The operation that shows a row. -/
def showOf : Topic → Id → Operation
  | .users => .showUser
  | .groups => .showGroup
  | .instances => .showInstance

theorem operation?_of_leadsTo {r : Request} (hverb : r.verb = .get) (hpath : LeadsTo r.path t id) :
    operation? r = some (showOf t id) := by
  obtain ⟨raw, hroute, hid⟩ := hpath
  have hreader : (rowOf t raw).reader? r.verb = some (.withId raw (showOf t)) := by
    rw [hverb]
    cases t <;> rfl
  refine operation?_eq_some (by rw [hverb]; decide) hroute hreader ?_
  rw [Reader.withId, hid]
  rfl

theorem run_showOf (sender : Sender) (f : Fleet) (t : Topic) (id : Id) :
    ∃ failure : Failure, failure.status = 404 ∧
      ((showOf t id).perform c sender).run f =
        ((f.entry? t id).elim (.error failure) fun e => .ok (.shown e), f) := by
  cases t with
  | users =>
    refine ⟨missing "User" id, rfl, ?_⟩
    show (Users.get id).run f = _
    rw [Users.get, Users.find, Action.run_bind, Action.run_find, Fleet.entry?]
    cases f.store.user? id <;> rfl
  | groups =>
    refine ⟨missing "Group" id, rfl, ?_⟩
    show (Groups.get id).run f = _
    rw [Groups.get, Groups.find, Action.run_bind, Action.run_find, Fleet.entry?]
    cases f.store.group? id <;> rfl
  | instances =>
    refine ⟨missing "Instance" id, rfl, ?_⟩
    show (Instances.get id).run f = _
    rw [Instances.get, Instances.find, Action.run_bind, Action.run_find, Fleet.entry?]
    cases f.store.instance? id <;> rfl

end State

/-- The answer is a success that shows something. -/
def Served.Shows (served : Served) (body : Json) : Prop :=
  served.response.status = 200 ∧ served.response.content = .json body

theorem Served.Shows.iff_eq {served : Served} {body other : Json} (h : served.Shows body) :
    served.Shows other ↔ body = other := by
  constructor
  · intro hother
    have hcontent := h.2.symm.trans hother.2
    injection hcontent
  · intro he
    rwa [← he]

namespace State

variable {c : Context} {d : Setup} {s : State} {t : Topic} {id : Id}

/-- Whoever is let in and asks for a row gets what is shown of it, if it is there. -/
theorem serve_row {r : Request} {sender : Sender} (hverb : r.verb = .get)
    (hpath : LeadsTo r.path t id)
    (hidentify : Sender.identify c s.fleet.store r.headers r.target = .ok sender) :
    (s.serve c r).state = s ∧
      match s.fleet.entry? t id with
      | some e => (s.serve c r).Shows e
      | none => (s.serve c r).response.status = 404 := by
  have hasked : s.asked c r = some (sender, showOf t id) :=
    asked_eq_some_iff.mpr ⟨hidentify, operation?_of_leadsTo hverb hpath⟩
  obtain ⟨failure, hstatus, hrun⟩ := run_showOf (c := c) sender s.fleet t id
  rw [serve_of_asked hasked]
  cases hentry : s.fleet.entry? t id with
  | some e =>
    rw [hentry] at hrun
    rw [perform_of_ok hrun, finish, if_neg (by rw [hverb]; decide)]
    exact ⟨rfl, rfl, rfl⟩
  | none =>
    rw [hentry] at hrun
    rw [perform_of_error hrun, finish, if_neg (by rw [hverb]; decide)]
    exact ⟨rfl, hstatus⟩

theorem serve_listing_entries {r : Request} {sender : Sender} (hverb : r.verb = .get)
    (hpath : r.path = t.path)
    (hidentify : Sender.identify c s.fleet.store r.headers r.target = .ok sender) :
    (s.serve c r).state = s ∧ (s.serve c r).Shows (.list (s.fleet.entries t)) := by
  obtain ⟨hstatus, hcontent, hstate⟩ := serve_listing hverb hpath hidentify
  rw [Fleet.listing_eq] at hcontent
  exact ⟨hstate, hstatus, hcontent⟩

/-- In every state that can be reached the listings are in order and fit each other.
Whoever is let in gets the entries of a listing by its path.  By the path of a row they
get the entry with its identifier, and are told that it is missing when the listing has
no such entry.  Nothing is altered by asking. -/
theorem listings_agree_with_rows (hs : Reachable d s) :
    s.fleet.Coherent ∧
    (∀ t id, LeadsTo (t.path ++ "/" ++ Numeral.ofInt id.val) t id) ∧
    ∀ (m : Moment) (r : Request) (sender : Sender), r.verb = .get →
      Admits (d.context m) s.fleet.store r.headers r.target sender →
      let served := s.serve (d.context m) r
      (∀ t, r.path = t.path → served.state = s ∧ served.Shows (.list (s.fleet.entries t))) ∧
      ∀ t id, LeadsTo r.path t id →
        served.state = s ∧
        (∀ e, served.Shows e ↔
          e ∈ s.fleet.entries t ∧ e.field? "id" = some (.int id.val)) ∧
        (served.response.status = 404 ↔
          ∀ e ∈ s.fleet.entries t, e.field? "id" ≠ some (.int id.val)) := by
  refine ⟨Fleet.coherent hs.sound, leadsTo, fun m r sender hverb hadmits => ?_⟩
  have hidentify := (Sender.identify_eq_ok_iff hs.sound).mpr hadmits
  refine ⟨fun t hpath => serve_listing_entries hverb hpath hidentify, fun t id hpath => ?_⟩
  obtain ⟨hstate, hanswer⟩ := serve_row hverb hpath hidentify
  refine ⟨hstate, ?_⟩
  rw [← Fleet.entry?_eq_none_iff hs.sound]
  simp only [← Fleet.entry?_eq_some_iff hs.sound]
  cases hentry : s.fleet.entry? t id with
  | some e =>
    rw [hentry] at hanswer
    refine ⟨fun other => by rw [hanswer.iff_eq, Option.some.injEq], ?_⟩
    simp [hanswer.1]
  | none =>
    rw [hentry] at hanswer
    refine ⟨fun other => ?_, iff_of_true hanswer rfl⟩
    have hmissing : ¬(s.serve (d.context m) r).Shows other := by
      intro hshows
      rw [hshows.1] at hanswer
      cases hanswer
    simp [hmissing]

/-- One group with one member is listed. -/
theorem watched_agree :
    let c := Setup.plain.context .epoch
    let team : Json := .record
      [("id", .int 1), ("name", .text "team"), ("members", .list [.int 0])]
    let get (path : String) : Served := watched.serve c (byRoot c (bare .get path))
    watched.fleet.Coherent ∧ (get "/api/group").Shows (.list [team]) ∧
      (get "/api/group/1").Shows team ∧ (get "/api/group/2").response.status = 404 := by
  intro c team get
  obtain ⟨hcoherent, hleads, hserved⟩ := listings_agree_with_rows reachable_watched
  have hadmits : ∀ path, Admits c watched.fleet.store (byRoot c (bare .get path)).headers
      (byRoot c (bare .get path)).target root := fun path =>
    (Sender.identify_eq_ok_iff reachable_watched.sound).mp (identify_byRoot rfl _)
  have hentries : watched.fleet.entries .groups = [team] := by
    have hmembers : watched.fleet.store.membersOf Table.firstId = [.zero] :=
      List.mergeSort_singleton _
    show [Message.toJson (watched.fleet.store.groupView ⟨Table.firstId, "team"⟩)] = [team]
    rw [Store.groupView, hmembers]
    rfl
  refine ⟨hcoherent, ?_, ?_, ?_⟩
  · rw [← hentries]
    exact ((hserved .epoch _ root rfl (hadmits "/api/group")).1 .groups rfl).2
  · have hrow := (hserved .epoch _ root rfl (hadmits "/api/group/1")).2 .groups Table.firstId
      (hleads .groups Table.firstId)
    exact (hrow.2.1 team).mpr ⟨hentries ▸ List.mem_singleton_self _, rfl⟩
  · have hrow := (hserved .epoch _ root rfl (hadmits "/api/group/2")).2 .groups ⟨2, by decide⟩
      (hleads .groups ⟨2, by decide⟩)
    refine hrow.2.2.mpr ?_
    rw [hentries]
    simp [team, Json.field?]

end State
end Service
end BotFleet
