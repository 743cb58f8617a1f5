import Mathlib.Data.List.Nodup
import BotFleet.Proofs.Registry.History

/-
Where the outboxes of sessions stand.

Each registered session has an outbox, no two sessions have the same one, and the place of
an outbox is not given out again.  An event gives out the next place or none, and
everything here follows from that.
-/

namespace BotFleet
namespace Registry

variable {r : Registry} {s : Session} {id : SessionId} {place : Nat}
variable {before since events : List Event}

/-- The places at which the outboxes of registered sessions stand. -/
def places (r : Registry) : List Nat := r.sessions.map (·.outbox)

theorem mem_places (h : s ∈ r.sessions) : s.outbox ∈ r.places :=
  List.mem_map_of_mem h

theorem places_setTopics (r : Registry) (id : SessionId) (change : List String → List String) :
    (r.setTopics id change).places = r.places := by
  rw [places, places, setTopics, List.map_map]
  refine List.map_congr_left fun s _ => ?_
  rw [Function.comp_apply]
  split <;> rfl

/-- A call gives out the next place, or none and leaves the outboxes as they are. -/
theorem places_run (c : Call) (r : Registry) :
    ((c.run r).2.places.Sublist r.places ∧ (c.run r).2.outboxes = r.outboxes) ∨
      ((c.run r).2.places = r.places ++ [r.outboxes.length] ∧
        (c.run r).2.outboxes = r.outboxes ++ [.fresh]) := by
  have hsame : r.places.Sublist r.places ∧ r.outboxes = r.outboxes := ⟨.refl _, rfl⟩
  have hset (id : SessionId) (change : List String → List String) :
      (r.setTopics id change).places.Sublist r.places ∧
        (r.setTopics id change).outboxes = r.outboxes :=
    ⟨places_setTopics r id change ▸ .refl _, rfl⟩
  cases c with
  | connect id =>
    rw [Call.run, connect]
    cases r.isConnected id with
    | true => exact .inl hsame
    | false => exact .inr ⟨List.map_append, rfl⟩
  | disconnect id => exact .inl ⟨List.filter_sublist.map _, rfl⟩
  | subscribe id topic =>
    rw [Call.run, subscribe]
    cases r.find? id with
    | none => exact .inl hsame
    | some s =>
      dsimp only
      cases s.topics.contains topic with
      | true => exact .inl hsame
      | false => exact .inl (hset id _)
  | unsubscribe id topic =>
    rw [Call.run, unsubscribe]
    cases r.find? id with
    | none => exact .inl hsame
    | some s =>
      dsimp only
      cases s.topics.contains topic with
      | true => exact .inl (hset id _)
      | false => exact .inl hsame

theorem notify_places (topic : String) (r : Registry) :
    (r.notify topic).registry.places = r.places := by
  rw [places, notify_sessions, places]

theorem notify_length (topic : String) (r : Registry) :
    (r.notify topic).registry.outboxes.length = r.outboxes.length :=
  notify_keeps (P := fun r' => r'.outboxes.length = r.outboxes.length) rfl fun _ _ _ h =>
    (List.length_modify ..).trans h

/-- An event gives out the next place, or none. -/
theorem places_next (e : Event) (r : Registry) :
    ((r.next e).places.Sublist r.places ∧ (r.next e).outboxes.length = r.outboxes.length) ∨
      ((r.next e).places = r.places ++ [r.outboxes.length] ∧
        (r.next e).outboxes.length = r.outboxes.length + 1) := by
  cases e with
  | call c =>
    rcases places_run c r with ⟨hplaces, houtboxes⟩ | ⟨hplaces, houtboxes⟩
    · exact .inl ⟨hplaces, by rw [next, houtboxes]⟩
    · exact .inr ⟨hplaces, by rw [next, houtboxes, List.length_append, List.length_singleton]⟩
  | dropped place => exact .inl ⟨.refl _, List.length_modify ..⟩
  | notified topic => exact .inl ⟨by rw [next, notify_places], notify_length topic r⟩

/-- No two sessions share an outbox, and each has one. -/
structure Sound (r : Registry) : Prop where
  nodup : r.places.Nodup
  bound : ∀ place ∈ r.places, place < r.outboxes.length

theorem Sound.next (h : r.Sound) (e : Event) : (r.next e).Sound := by
  rcases places_next e r with ⟨hplaces, hlength⟩ | ⟨hplaces, hlength⟩
  · exact ⟨hplaces.nodup h.nodup, fun place hmem => hlength ▸ h.bound place (hplaces.subset hmem)⟩
  · constructor
    · rw [hplaces, ← List.concat_eq_append]
      exact h.nodup.concat fun hmem => Nat.lt_irrefl _ (h.bound _ hmem)
    · intro place hmem
      rw [hplaces, List.mem_append, List.mem_singleton] at hmem
      rw [hlength]
      rcases hmem with hmem | rfl
      · exact Nat.lt_succ_of_lt (h.bound place hmem)
      · exact Nat.lt_succ_self _

/-- What is queued does not matter. -/
theorem Sound.modify (h : r.Sound) (place : Nat) (change : Outbox → Outbox) :
    Sound { r with outboxes := r.outboxes.modify place change } :=
  ⟨h.nodup, fun other hmem => (h.bound other hmem).trans_eq (List.length_modify ..).symm⟩

theorem sound_after (events : List Event) : (empty.after events).Sound := by
  induction events using List.reverseRecOn with
  | nil => exact ⟨List.nodup_nil, nofun⟩
  | append_singleton events e ih =>
    rw [after_concat]
    exact ih.next e

/-- A place that was given up is not given out again. -/
theorem not_mem_places_after (hplace : place ∉ r.places) (hbound : place < r.outboxes.length)
    (events : List Event) : place ∉ (r.after events).places := by
  induction events generalizing r with
  | nil => exact hplace
  | cons e events ih =>
    rw [after_cons]
    rcases places_next e r with ⟨hplaces, hlength⟩ | ⟨hplaces, hlength⟩
    · exact ih (fun hmem => hplace (hplaces.subset hmem)) (hlength ▸ hbound)
    · refine ih ?_ (by omega)
      rw [hplaces, List.mem_append, List.mem_singleton, not_or]
      exact ⟨hplace, by omega⟩

theorem exists_of_standing? {topics : Set String} (h : r.standing? id = some (topics, place)) :
    ∃ s ∈ r.sessions, s.id = id ∧ s.outbox = place ∧ topics = {t | t ∈ s.topics} := by
  obtain ⟨s, hs, heq⟩ := Option.map_eq_some_iff.mp h
  cases heq
  exact ⟨s, List.mem_of_find?_eq_some hs, id_of_find? hs, rfl, rfl⟩

/-- A disconnect gives up the place of the session. -/
theorem Sound.not_mem_places_disconnect (h : r.Sound) {topics : Set String}
    (hstanding : r.standing? id = some (topics, place)) : place ∉ (r.disconnect id).2.places := by
  obtain ⟨s, hs, rfl, rfl, -⟩ := exists_of_standing? hstanding
  intro hmem
  obtain ⟨x, hx, heq⟩ := List.mem_map.mp hmem
  obtain ⟨hx, hid⟩ := List.mem_filter.mp hx
  have hsame : x = s := List.inj_on_of_nodup_map h.nodup hx hs heq
  simp [hsame] at hid

/-- Once its session was disconnected, no session has the outbox of a connect. -/
theorem Accepted.not_mem_places (h : Accepted id place before since events)
    (hleft : .call (.disconnect id) ∈ since) : place ∉ (empty.after events).places := by
  obtain ⟨stay, rest, rfl, hstay⟩ := List.eq_append_cons_of_mem hleft
  have hregistered : Accepted id place before stay _ := ⟨rfl, h.answer, h.place_eq⟩
  have hstanding := hregistered.standing? hstay
  have hsound := sound_after (before ++ .call (.connect id) :: stay)
  have hevents : events =
      (before ++ .call (.connect id) :: stay) ++ .call (.disconnect id) :: rest := by
    rw [h.split, List.append_assoc, List.cons_append]
  obtain ⟨s, hs, -, hplace, -⟩ := exists_of_standing? hstanding
  rw [hevents, after_append, after_cons]
  refine not_mem_places_after (hsound.not_mem_places_disconnect hstanding) ?_ rest
  rw [← hplace]
  exact hsound.bound _ (mem_places hs)

end Registry
end BotFleet
