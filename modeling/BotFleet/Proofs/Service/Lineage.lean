import BotFleet.Proofs.Service.Run

/-
Where the row of an account comes from.

A row is the same one as long as no state in between lacks a row with its identifier.
Edits alter it, but they never touch the time at which it was created.  A row that
stands in a place that was empty at some point was put there by the request that
created it, and that request came after the place was empty.
-/

namespace BotFleet
namespace Service

open Http (Request)

def Fleet.HasUser (f : Fleet) (id : Id) : Prop := Table.has id f.store.users = true

/-- A row of an account after an operation is as it was, or the operation has added it,
or it is what an edit has made of a row. -/
theorem Effect.user_cases {c : Context} {sender : Sender} {f f' : Fleet} {op : Operation}
    {a : Answer} (h : Effect c sender f op a f') {v : User} (hv : v ∈ f'.store.users) :
    (v ∈ f.store.users ∧ ∀ request, op ≠ .editUser v.id request) ∨
      (∃ request hash, op = .createUser request ∧ ¬f.HasUser v.id ∧
        Hashed c (some request.password) (some hash) ∧
        v = ⟨v.id, request.username, request.enabled, hash, c.now⟩) ∨
      ∃ request hash, op = .editUser v.id request ∧ Hashed c request.password hash ∧
        ∃ u ∈ f.store.users, u.id = v.id ∧
          v = Store.UserChanges.apply ⟨request.username, request.enabled, hash⟩ u := by
  cases h with
  | @createUser request hash _ _ _ hpassword _ hhash hcall =>
    obtain ⟨id, -, hfresh, -, -, rfl, rfl⟩ := Store.createUser_eq_ok hcall
    rcases Table.mem_insert.mp hv with rfl | hv
    · refine .inr (.inl ⟨request, hash, rfl, ?_, .some hpassword hhash, rfl⟩)
      rw [Fleet.HasUser, hfresh]
      decide
    · exact .inl ⟨hv, nofun⟩
  | @editUser id request hash _ _ _ hhash hcall =>
    obtain ⟨_, -, -, -, rfl⟩ := Store.updateUser_eq_ok_some hcall
    obtain ⟨u, hu, rfl⟩ := List.mem_map.mp hv
    by_cases hid : u.id = id
    · have hrow : (Row.key u == id) = true := beq_iff_eq.mpr hid
      rw [if_pos hrow]
      exact .inr (.inr ⟨request, hash, by rw [← hid]; rfl, hhash, u, hu, rfl, rfl⟩)
    · have hrow : ¬(Row.key u == id) = true := fun h => hid (beq_iff_eq.mp h)
      rw [if_neg hrow]
      refine .inl ⟨hu, ?_⟩
      rintro _ ⟨⟩
      exact hid rfl
  | deleteUser => exact .inl ⟨(Table.mem_erase.mp hv).1, nofun⟩
  | grantUser hcall =>
    obtain ⟨-, -, rfl⟩ := Store.grantUser_eq_ok hcall
    exact .inl ⟨hv, nofun⟩
  | createGroup _ hcall =>
    obtain ⟨_, -, -, -, -, rfl⟩ := Store.createGroup_eq_ok hcall
    exact .inl ⟨hv, nofun⟩
  | renameGroup _ hcall =>
    obtain ⟨_, -, -, -, rfl⟩ := Store.renameGroup_eq_ok_some hcall
    exact .inl ⟨hv, nofun⟩
  | addMember hcall | stayMember hcall =>
    obtain ⟨-, -, -, rfl⟩ := Store.addMember_eq_ok hcall
    exact .inl ⟨hv, nofun⟩
  | grantGroup hcall =>
    obtain ⟨-, -, rfl⟩ := Store.grantGroup_eq_ok hcall
    exact .inl ⟨hv, nofun⟩
  | createInstance _ hcall =>
    obtain ⟨_, -, -, -, rfl⟩ := Store.createInstance_eq_ok hcall
    exact .inl ⟨hv, nofun⟩
  | editInstance _ hcall =>
    obtain ⟨_, -, -, rfl⟩ := Store.updateInstance_eq_some hcall
    exact .inl ⟨hv, nofun⟩
  | revokeUser | deleteGroup | removeMember | revokeGroup | deleteInstance | dropInstance
  | startInstance | stopInstance | showMe | listUsers | showUser | listGroups | showGroup
  | listInstances | showInstance | keepStarted | keepStopped | listAuthorities =>
    exact .inl ⟨hv, nofun⟩

/-- A row of an account after an operation was there before, under the same identifier,
or the operation has created it. -/
theorem Effect.user_origin {c : Context} {sender : Sender} {f f' : Fleet} {op : Operation}
    {a : Answer} (h : Effect c sender f op a f') {v : User} (hv : v ∈ f'.store.users) :
    (∃ u ∈ f.store.users, u.id = v.id ∧ u.created = v.created) ∨
      ∃ request, op = .createUser request ∧ ¬f.HasUser v.id ∧ v.created = c.now := by
  rcases h.user_cases hv with ⟨hold, -⟩ | ⟨request, hash, rfl, hnew, -, hrow⟩ |
    ⟨request, hash, -, -, u, hu, hid, hrow⟩
  · exact .inl ⟨v, hold, rfl, rfl⟩
  · exact .inr ⟨request, rfl, hnew, by rw [hrow]⟩
  · exact .inl ⟨u, hu, hid, by rw [hrow]; rfl⟩

namespace State

variable {d : Setup} {s : State} {id : Id} {events : List Event}

/-- The event is a request that is let in and that asks for a new account. -/
def Creates (d : Setup) (s : State) (e : Event) (now : Instant) : Prop :=
  ∃ m r sender request, e = .request m r ∧ now = m.now ∧
    s.asked (d.context m) r = some (sender, .createUser request)

theorem user_origin (hs : s.fleet.store.Sound) {e : Event} {v : User}
    (hv : v ∈ (s.next d e).fleet.store.users) :
    (∃ u ∈ s.fleet.store.users, u.id = v.id ∧ u.created = v.created) ∨
      ¬s.fleet.HasUser v.id ∧ s.Creates d e v.created := by
  rcases next_fleet d hs e with ⟨m, r, sender, op, a, rfl, hasked, heffect, -⟩ | halike
  · rcases heffect.user_origin hv with hold | ⟨request, rfl, hfresh, hnow⟩
    · exact .inl hold
    · exact .inr ⟨hfresh, m, r, sender, request, rfl, hnow, hasked⟩
  · rw [halike.store] at hv
    exact .inl ⟨v, hv, rfl, rfl⟩

/-! ## Runs -/

/-- There is an account with the identifier from beginning to end. -/
def Keeps (d : Setup) (id : Id) (s : State) (events : List Event) : Prop :=
  ∀ mid, mid <+: events → (s.after d mid).fleet.HasUser id

theorem keeps_cons {e : Event} :
    s.Keeps d id (e :: events) ↔ s.fleet.HasUser id ∧ (s.next d e).Keeps d id events :=
  forall_prefix_cons

/-- An account that is kept is the one that there was in the beginning. -/
theorem created_of_keeps (hs : s.fleet.store.Sound) (hkeeps : s.Keeps d id events) {u v : User}
    (hu : u ∈ s.fleet.store.users) (huid : u.id = id)
    (hv : v ∈ (s.after d events).fleet.store.users) (hvid : v.id = id) :
    v.created = u.created := by
  induction events generalizing s u with
  | nil =>
    rw [Table.eq_of_key_eq hs.users hv hu (hvid.trans huid.symm)]
  | cons e events ih =>
    obtain ⟨hhas, hkept⟩ := keeps_cons.mp hkeeps
    obtain ⟨w, hw, hwid⟩ := Table.has_iff.mp (hkept [] List.nil_prefix)
    have hlast : v.created = w.created := ih (next_sound hs e) hkept hw hwid hv
    rcases user_origin hs hw with ⟨u', hu', hid, hcreated⟩ | ⟨hno, -⟩
    · have hsame : u = u' :=
        Table.eq_of_key_eq hs.users hu hu' (huid.trans (hid.trans hwid).symm)
      rw [hlast, ← hcreated, hsame]
    · exact absurd hhas (hwid ▸ hno)

/-- An account whose place was empty was created after that. -/
theorem creates_of_not_keeps (hs : s.fleet.store.Sound) (hkeeps : ¬s.Keeps d id events) {v : User}
    (hv : v ∈ (s.after d events).fleet.store.users) (hvid : v.id = id) :
    ∃ before e rest, events = before ++ e :: rest ∧ ¬(s.after d before).fleet.HasUser id ∧
      (s.after d before).Creates d e v.created ∧
      (s.after d (before ++ [e])).Keeps d id rest := by
  induction events generalizing s with
  | nil =>
    refine absurd (fun mid hmid => ?_) hkeeps
    rw [List.prefix_nil.mp hmid]
    exact Table.has_iff.mpr ⟨v, hv, hvid⟩
  | cons e events ih =>
    by_cases hrest : (s.next d e).Keeps d id events
    · have hno : ¬s.fleet.HasUser id := fun hhas => hkeeps (keeps_cons.mpr ⟨hhas, hrest⟩)
      obtain ⟨w, hw, hwid⟩ := Table.has_iff.mp (hrest [] List.nil_prefix)
      have hlast : v.created = w.created :=
        created_of_keeps (next_sound hs e) hrest hw hwid hv hvid
      rcases user_origin hs hw with ⟨u, hu, hid, -⟩ | ⟨-, hcreates⟩
      · exact absurd (Table.has_iff.mpr ⟨u, hu, hid.trans hwid⟩) hno
      · refine ⟨[], e, events, rfl, hno, ?_, hrest⟩
        rw [hlast]
        exact hcreates
    · obtain ⟨before, x, rest, rfl, hno, hcreates, hkept⟩ := ih (next_sound hs e) hrest hv
      exact ⟨e :: before, x, rest, rfl, hno, hcreates, hkept⟩

end State
end Service
end BotFleet
