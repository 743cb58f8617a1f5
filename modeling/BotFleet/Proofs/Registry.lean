import BotFleet.Registry

/-
What telling the subscribers of a change puts into their outboxes.

Every outbox of a subscriber that somebody still takes from grows at its end, by
notices about the topic that was told and by nothing else, and all other outboxes stay
as they are.  The sessions and their topics stay as well.
-/

namespace BotFleet

theorem Topic.path_injective {t u : Topic} (h : t.path = u.path) : t = u := by
  revert h
  cases t <;> cases u <;> decide

theorem Change.exists_topic (change : Change) : ∃ t, t ∈ change.topics := by
  cases change <;> exact ⟨_, List.mem_singleton_self _⟩

namespace Registry

variable {r r' : Registry} {x : Session} {topic : String}

/-- The frames have been queued at a place between two moments. -/
def Queued (r r' : Registry) (place : Nat) (queued : List (Frame ServerMethod)) : Prop :=
  ∃ o, r.outboxes[place]? = some o ∧
    r'.outboxes[place]? = some { o with frames := o.frames ++ queued }

/-- A session has been told of a topic between two moments. -/
def Told (r r' : Registry) (x : Session) (topic : String) : Prop :=
  ∃ queued, Queued r r' x.outbox queued ∧ Frame.update topic ∈ queued

theorem Queued.refl {place : Nat} {o : Outbox} (h : r.outboxes[place]? = some o) :
    Queued r r place [] := by
  refine ⟨o, h, ?_⟩
  rw [List.append_nil]
  exact h

theorem Queued.unique {place : Nat} {a b : List (Frame ServerMethod)}
    (ha : Queued r r' place a) (hb : Queued r r' place b) : a = b := by
  obtain ⟨o, ho, ha⟩ := ha
  obtain ⟨p, hp, hb⟩ := hb
  rw [ho] at hp
  cases hp
  rw [ha] at hb
  injection hb with hb
  injection hb with hframes _
  exact List.append_cancel_left hframes

/-! ## One topic -/

theorem push_outbox (s : Session) (frame : Frame ServerMethod) (r : Registry) (place : Nat) :
    (r.push s frame).outboxes[place]? =
      if s.outbox = place then r.outboxes[place]?.map (·.push frame) else r.outboxes[place]? := by
  rw [push, List.getElem?_modify]
  split <;> cases r.outboxes[place]? <;> rfl

/-- Telling a topic keeps what pushing its notice to one session keeps. -/
theorem notify_keeps {P : Registry → Prop} (hstart : P r)
    (hpush : ∀ r', ∀ s ∈ r.sessions, P r' → P (r'.push s (.update topic))) :
    P (r.notify topic).registry := by
  refine List.foldlRecOn _ _ hstart fun r' hr' s hs => hpush r' s ?_ hr'
  exact (List.mem_filter.mp (List.mem_filter.mp hs).1).1

theorem notify_sessions (topic : String) (r : Registry) :
    (r.notify topic).registry.sessions = r.sessions :=
  notify_keeps (P := fun r' => r'.sessions = r.sessions) rfl fun _ _ _ h => h

/-- Pushing one frame to many sessions queues it at a place as often as a session has
its outbox there. -/
theorem outbox_foldl_push (frame : Frame ServerMethod) (live : List Session) (r : Registry)
    {place : Nat} {o : Outbox} (ho : r.outboxes[place]? = some o) (hreceiving : o.receiving) :
    Queued r (live.foldl (fun r s => r.push s frame) r) place
      (List.replicate (live.countP (·.outbox == place)) frame) := by
  induction live generalizing r o with
  | nil => exact .refl ho
  | cons s live ih =>
    have hpush := push_outbox s frame r place
    by_cases hs : s.outbox = place
    · rw [if_pos hs, ho, Option.map_some, Outbox.push, if_pos hreceiving] at hpush
      obtain ⟨p, hp, hqueued⟩ := ih (r.push s frame) hpush hreceiving
      rw [hpush] at hp
      cases hp
      refine ⟨o, ho, ?_⟩
      rw [List.countP_cons_of_pos (by simpa using hs), List.replicate_succ]
      simpa using hqueued
    · rw [if_neg hs, ho] at hpush
      obtain ⟨p, hp, hqueued⟩ := ih (r.push s frame) hpush hreceiving
      rw [hpush] at hp
      cases hp
      rw [List.countP_cons_of_neg (by simpa using hs)]
      exact ⟨o, ho, hqueued⟩

/-- What nobody takes from stays as it is. -/
theorem outbox_foldl_push_gone (frame : Frame ServerMethod) (live : List Session) (r : Registry)
    {place : Nat} {o : Outbox} (ho : r.outboxes[place]? = some o) (hgone : o.receiving = false) :
    (live.foldl (fun r s => r.push s frame) r).outboxes[place]? = some o := by
  induction live generalizing r with
  | nil => exact ho
  | cons s live ih =>
    have hpush : o.push frame = o := by
      rw [Outbox.push, hgone]
      rfl
    refine ih (r.push s frame) ?_
    rw [push_outbox, ho, Option.map_some, hpush, ite_self]

theorem isReceiving_iff : r.isReceiving x = true ↔
    ∃ o, r.outboxes[x.outbox]? = some o ∧ o.receiving = true := by
  rw [isReceiving, outbox?]
  cases r.outboxes[x.outbox]? <;> simp

/-- Only notices about the topic are queued. -/
theorem queued_notify {place : Nat} {o : Outbox} (ho : r.outboxes[place]? = some o) :
    ∃ n, Queued r (r.notify topic).registry place (List.replicate n (.update topic)) := by
  cases hreceiving : o.receiving with
  | true => exact ⟨_, outbox_foldl_push _ _ r ho hreceiving⟩
  | false =>
    refine ⟨0, o, ho, ?_⟩
    rw [List.replicate_zero, List.append_nil]
    exact outbox_foldl_push_gone _ _ r ho hreceiving

theorem told_notify (hx : x ∈ r.sessions) (htopic : topic ∈ x.topics)
    (hlive : r.isReceiving x = true) : Told r (r.notify topic).registry x topic := by
  obtain ⟨o, ho, hreceiving⟩ := isReceiving_iff.mp hlive
  refine ⟨_, outbox_foldl_push _ _ r ho hreceiving, ?_⟩
  rw [List.mem_replicate]
  refine ⟨?_, rfl⟩
  have hmem : x ∈ (r.subscribers topic).filter r.isReceiving := by
    refine List.mem_filter.mpr ⟨List.mem_filter.mpr ⟨hx, ?_⟩, hlive⟩
    exact List.contains_iff_mem.mpr htopic
  have hpos : 0 < ((r.subscribers topic).filter r.isReceiving).countP (·.outbox == x.outbox) :=
    List.countP_pos_iff.mpr ⟨x, hmem, by simp⟩
  omega

/-! ## Changes -/

/-- A change makes one listing stale, and its subscribers are told once. -/
theorem notifyChange_registry {change : Change} {t : Topic} (ht : t ∈ change.topics) :
    (r.notifyChange change).registry = (r.notify t.path).registry := by
  cases change <;> cases List.mem_singleton.mp ht <;> rfl

theorem told_notifyChange {change : Change} {t : Topic} (ht : t ∈ change.topics)
    (hx : x ∈ r.sessions) (htopic : t.path ∈ x.topics) (hlive : r.isReceiving x = true) :
    Told r (r.notifyChange change).registry x t.path := by
  rw [notifyChange_registry ht]
  exact told_notify hx htopic hlive

/-- Nobody is told of a listing that a change is not said to make stale. -/
theorem not_told_notifyChange {change : Change} {t : Topic} (ht : t ∉ change.topics) :
    ¬Told r (r.notifyChange change).registry x t.path := by
  rintro ⟨queued, hqueued, hmem⟩
  obtain ⟨u, hu⟩ := change.exists_topic
  rw [notifyChange_registry hu] at hqueued
  have ⟨o, ho, _⟩ := hqueued
  obtain ⟨n, hn⟩ := queued_notify ho
  rw [hqueued.unique hn, List.mem_replicate] at hmem
  have hpath : t.path = u.path := congrArg Frame.body hmem.2
  rw [Topic.path_injective hpath] at ht
  exact ht hu

end Registry
end BotFleet
