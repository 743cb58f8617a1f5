import Mathlib.Data.List.Perm.Basic
import BotFleet.Proofs.Registry.Places

/-
Who is told of a change, over a whole history.

What stands at the place of an accepted connect was put there for that session: one notice
for each change that was told while the session was registered, subscribed to the topic
and somebody took from its outbox, in the order in which they were told.

The subscribers of a topic are told one after another.  A turn touches one outbox, and the
turns of two sessions commute, so the order in which the sessions are kept does not show.
-/

namespace BotFleet
namespace Registry

variable {r : Registry} {s : Session} {id : SessionId} {topic : String} {place : Nat}
variable {e : Event} {before since events : List Event}

/-! ## One notice -/

theorem push_isReceiving (s x : Session) (frame : Frame ServerMethod) (r : Registry) :
    (r.push s frame).isReceiving x = r.isReceiving x := by
  have hkept (o : Outbox) : (o.push frame).receiving = o.receiving := by
    rw [Outbox.push]
    split <;> rfl
  rw [isReceiving, outbox?, push_outbox, isReceiving, outbox?]
  split
  · cases r.outboxes[x.outbox]? with
    | none => rfl
    | some o => exact hkept o
  · rfl

theorem notify_isReceiving (topic : String) (r : Registry) (x : Session) :
    (r.notify topic).registry.isReceiving x = r.isReceiving x :=
  notify_keeps (P := fun r' => r'.isReceiving x = r.isReceiving x) rfl fun r' s _ h =>
    (push_isReceiving s x _ r').trans h

/-- What no session has as its outbox stays as it is. -/
theorem notify_outbox_of_not_mem (h : place ∉ r.places) :
    (r.notify topic).registry.outboxes[place]? = r.outboxes[place]? := by
  refine notify_keeps (P := fun r' => r'.outboxes[place]? = r.outboxes[place]?) rfl ?_
  intro r' s hs hkept
  have hother : s.outbox ≠ place := by
    rintro rfl
    exact h (mem_places hs)
  rw [push_outbox, if_neg hother, hkept]

/-- A place is told as often as a subscriber somebody takes from stands there, and that is
at most once. -/
theorem Sound.countP_live (h : r.Sound) (topic : String) (hs : s ∈ r.sessions)
    (hlive : r.isReceiving s = true) :
    ((r.subscribers topic).filter r.isReceiving).countP (·.outbox == s.outbox) =
      if topic ∈ s.topics then 1 else 0 := by
  have hsub : ((r.subscribers topic).filter r.isReceiving).Sublist r.sessions :=
    List.filter_sublist.trans List.filter_sublist
  have hnodup := (hsub.map Session.outbox).nodup h.nodup
  have hcount : (((r.subscribers topic).filter r.isReceiving).map Session.outbox).count s.outbox =
      _ := hnodup.count
  rw [List.count, List.countP_map] at hcount
  refine hcount.trans (if_congr ?_ rfl rfl)
  constructor
  · intro hmem
    obtain ⟨x, hx, heq⟩ := List.mem_map.mp hmem
    have hsame : x = s := List.inj_on_of_nodup_map h.nodup (hsub.subset hx) hs heq
    subst hsame
    exact List.contains_iff_mem.mp (List.mem_filter.mp (List.mem_of_mem_filter hx)).2
  · intro htopic
    refine List.mem_map_of_mem (List.mem_filter.mpr ⟨List.mem_filter.mpr ⟨hs, ?_⟩, hlive⟩)
    exact List.contains_iff_mem.mpr htopic

/-- A session is told once if it is subscribed and somebody takes from its outbox, and not
at all otherwise. -/
theorem Sound.queued_notify (h : r.Sound) (topic : String) (hs : s ∈ r.sessions) :
    Queued r (r.notify topic).registry s.outbox
      (if topic ∈ s.topics ∧ r.isReceiving s = true then [.update topic] else []) := by
  cases hlive : r.isReceiving s with
  | false =>
    have hbound := h.bound _ (mem_places hs)
    have ho := List.getElem?_eq_getElem hbound
    have hgone : r.outboxes[s.outbox].receiving = false := by
      rw [isReceiving, outbox?, ho, Option.any_some] at hlive
      exact hlive
    rw [if_neg (by simp)]
    refine ⟨_, ho, ?_⟩
    rw [List.append_nil]
    exact outbox_foldl_push_gone _ _ r ho hgone
  | true =>
    obtain ⟨o, ho, hreceiving⟩ := isReceiving_iff.mp hlive
    have hqueued := outbox_foldl_push (.update topic)
      ((r.subscribers topic).filter r.isReceiving) r ho hreceiving
    rw [h.countP_live topic hs hlive] at hqueued
    by_cases htopic : topic ∈ s.topics
    · rw [if_pos ⟨htopic, rfl⟩]
      rwa [if_pos htopic] at hqueued
    · rw [if_neg fun hboth => htopic hboth.1]
      rwa [if_neg htopic] at hqueued

/-! ## Notices over a history -/

/-- A session is told of a topic, if this is what happened since its connect was accepted
with an outbox at the place. -/
def Hears (id : SessionId) (place : Nat) (topic : String) (past : List Event) : Prop :=
  .call (.disconnect id) ∉ past ∧ LastSubscribes id topic past ∧ .dropped place ∉ past

instance (id : SessionId) (place : Nat) (topic : String) (past : List Event) :
    Decidable (Hears id place topic past) :=
  inferInstanceAs (Decidable (_ ∧ _ ∧ _))

/-- The topics of which the next event tells the session. -/
def toldBy (id : SessionId) (place : Nat) (past : List Event) : Event → List String
  | .notified topic => if Hears id place topic past then [topic] else []
  | _ => []

/-- The topics of which the session is told, one event after another. -/
def toldOver (id : SessionId) (place : Nat) (past : List Event) : List Event → List String
  | [] => []
  | e :: coming => toldBy id place past e ++ toldOver id place (past ++ [e]) coming

theorem toldOver_concat (past coming : List Event) (e : Event) :
    toldOver id place past (coming ++ [e]) =
      toldOver id place past coming ++ toldBy id place (past ++ coming) e := by
  induction coming generalizing past with
  | nil => simp [toldOver]
  | cons x coming ih => simp [toldOver, ih]

/-- The outbox of a connect, if this is what happened since. -/
def outboxAfter (id : SessionId) (place : Nat) (since : List Event) : Outbox :=
  ⟨(toldOver id place [] since).map .update, decide (.dropped place ∉ since)⟩

/-- While a session has the outbox of a connect, it hears of a topic exactly if it is
subscribed to it and somebody takes from the outbox. -/
theorem Accepted.hears_iff_of_mem (h : Accepted id place before since events) (topic : String)
    (ho : (empty.after events).outboxes[place]? = some (outboxAfter id place since))
    (hs : s ∈ (empty.after events).sessions) (hplace : s.outbox = place) :
    Hears id place topic since ↔
      topic ∈ s.topics ∧ (empty.after events).isReceiving s = true := by
  have hstay : .call (.disconnect id) ∉ since := fun hleft =>
    h.not_mem_places hleft (hplace ▸ mem_places hs)
  obtain ⟨x, hx, -, hsame, htopics⟩ := exists_of_standing? (h.standing? hstay)
  obtain rfl : x = s := List.inj_on_of_nodup_map (sound_after events).nodup hx hs
    (hsame.trans hplace.symm)
  have hlast : LastSubscribes id topic since ↔ topic ∈ x.topics := Set.ext_iff.mp htopics topic
  have hlive : (empty.after events).isReceiving x = decide (.dropped place ∉ since) := by
    rw [isReceiving, outbox?, hplace, ho]
    rfl
  rw [hlive, decide_eq_true_iff, ← hlast]
  exact ⟨And.right, fun hboth => ⟨hstay, hboth⟩⟩

theorem Accepted.outbox_next (h : Accepted id place before since events)
    (ho : (empty.after events).outboxes[place]? = some (outboxAfter id place since))
    (e : Event) :
    ((empty.after events).next e).outboxes[place]? =
      some (outboxAfter id place (since ++ [e])) := by
  rw [outboxAfter, toldOver_concat, List.nil_append]
  cases e with
  | call c =>
    have hkept : some (outboxAfter id place since) = some
        ⟨(toldOver id place [] since ++ toldBy id place since (.call c)).map .update,
          decide (.dropped place ∉ since ++ [.call c])⟩ := by
      simp [outboxAfter, toldBy]
    rw [← hkept, next]
    rcases places_run c (empty.after events) with ⟨-, houtboxes⟩ | ⟨-, houtboxes⟩
    · rw [houtboxes, ho]
    · rw [houtboxes, List.getElem?_append_left (List.getElem?_eq_some_iff.mp ho).1, ho]
  | dropped dropped =>
    rw [next, dropOutbox, List.getElem?_modify, ho]
    by_cases hplace : dropped = place
    · simp [outboxAfter, toldBy, Outbox.drop, hplace]
    · simp [outboxAfter, toldBy, hplace, Ne.symm hplace]
  | notified topic =>
    by_cases hleft : .call (.disconnect id) ∈ since
    · rw [next, notify_outbox_of_not_mem (h.not_mem_places hleft), ho]
      simp [outboxAfter, toldBy, Hears, hleft]
    · obtain ⟨s, hs, -, hplace, -⟩ := exists_of_standing? (h.standing? hleft)
      have hhears := h.hears_iff_of_mem topic ho hs hplace
      obtain ⟨o, hbefore, hqueued⟩ := (sound_after events).queued_notify topic hs
      rw [hplace, ho] at hbefore
      cases hbefore
      rw [next, ← hplace, hqueued, hplace, toldBy]
      by_cases htold : Hears id place topic since
      · rw [if_pos (hhears.mp htold), if_pos htold]
        simp [outboxAfter]
      · rw [if_neg (mt hhears.mpr htold), if_neg htold]
        simp [outboxAfter]

/-- What is queued for an accepted connect is told by its history. -/
theorem Accepted.outbox (h : Accepted id place before since events) :
    (empty.after events).outboxes[place]? = some (outboxAfter id place since) := by
  induction since using List.reverseRecOn generalizing events with
  | nil =>
    obtain ⟨r', hrun, -, houtboxes⟩ := run_connect_of_none (answer_connect_iff.mp h.answer)
    rw [h.split, h.place_eq, after_concat, next, hrun, houtboxes, List.getElem?_concat_length]
    rfl
  | append_singleton since e ih =>
    have hbefore : Accepted id place before since _ := ⟨rfl, h.answer, h.place_eq⟩
    rw [h.split, ← List.cons_append, ← List.append_assoc, after_concat]
    exact hbefore.outbox_next (ih hbefore) e

/-! ## The order of the sessions -/

theorem push_comm (s x : Session) (frame : Frame ServerMethod) (r : Registry) :
    (r.push s frame).push x frame = (r.push x frame).push s frame := by
  have houtboxes : ((r.push s frame).push x frame).outboxes =
      ((r.push x frame).push s frame).outboxes := by
    refine List.ext_getElem? fun place => ?_
    simp only [push_outbox]
    split <;> split <;> rfl
  exact congrArg (Registry.mk r.sessions) houtboxes

/-- One turn of telling the subscribers of a topic. -/
def tell (topic : String) (d : Delivery) (s : Session) : Delivery :=
  if d.registry.isReceiving s then
    { d with registry := d.registry.push s (.update topic), delivered := d.delivered + 1 }
  else { d with notices := d.notices ++ [goneNotice topic s] }

/-- The sessions are told one after another. -/
def tellInOrder (topic : String) (order : List Session) (r : Registry) : Delivery :=
  order.foldl (tell topic) ⟨r, 0, []⟩

/-- Whether somebody takes from an outbox is the same at its turn as it was at first. -/
theorem foldl_tell (topic : String) (order : List Session) (d : Delivery) :
    order.foldl (tell topic) d =
      { registry := (order.filter d.registry.isReceiving).foldl
          (fun r s => r.push s (.update topic)) d.registry
        delivered := d.delivered + (order.filter d.registry.isReceiving).length
        notices := d.notices ++
          (order.filter fun s => !d.registry.isReceiving s).map (goneNotice topic) } := by
  induction order generalizing d with
  | nil => simp
  | cons s order ih =>
    have hpush : (d.registry.push s (.update topic)).isReceiving = d.registry.isReceiving :=
      funext fun x => push_isReceiving s x _ _
    rw [List.foldl_cons, ih, tell]
    by_cases hlive : d.registry.isReceiving s = true
    · simp [hlive, hpush, Nat.add_assoc, Nat.add_comm 1]
    · simp [hlive]

theorem tellInOrder_eq (topic : String) (order : List Session) (r : Registry) :
    tellInOrder topic order r =
      { registry := (order.filter r.isReceiving).foldl (fun r s => r.push s (.update topic)) r
        delivered := (order.filter r.isReceiving).length
        notices := (order.filter fun s => !r.isReceiving s).map (goneNotice topic) } := by
  rw [tellInOrder, foldl_tell, Nat.zero_add, List.nil_append]

theorem notify_eq_tellInOrder (topic : String) (r : Registry) :
    r.notify topic = tellInOrder topic (r.subscribers topic) r := by
  rw [tellInOrder_eq, notify]

/-- In whichever order the sessions are told, the same is queued for each and as many are
told.  Only the notices come in the order of the turns. -/
theorem tellInOrder_perm {a b : List Session} (h : a.Perm b) (topic : String) (r : Registry) :
    (tellInOrder topic a r).registry = (tellInOrder topic b r).registry ∧
      (tellInOrder topic a r).delivered = (tellInOrder topic b r).delivered ∧
      (tellInOrder topic a r).notices.Perm (tellInOrder topic b r).notices := by
  have hlive := h.filter r.isReceiving
  rw [tellInOrder_eq, tellInOrder_eq]
  refine ⟨?_, hlive.length_eq, (h.filter _).map _⟩
  exact hlive.foldl_eq' (fun x _ s _ r => push_comm x s (.update topic) r) r

/-! ## Fan-out -/

theorem delivered_notify (topic : String) (r : Registry) :
    (r.notify topic).delivered =
      r.sessions.countP fun s => topic ∈ s.topics ∧ r.isReceiving s = true := by
  rw [notify, subscribers, List.filter_filter, ← List.countP_eq_length_filter]
  refine List.countP_congr fun s _ => ?_
  simp [and_comm]

theorem encode_update (topic : String) : (Frame.update topic).encode = "UPDATE\n\n" ++ topic :=
  rfl

/-- What telling a topic does at a registry. -/
structure Tells (r : Registry) : Prop where
  sessions : ∀ topic, (r.notify topic).registry.sessions = r.sessions
  receiving : ∀ topic s, (r.notify topic).registry.isReceiving s = r.isReceiving s
  queued : ∀ topic, ∀ s ∈ r.sessions, Queued r (r.notify topic).registry s.outbox
    (if topic ∈ s.topics ∧ r.isReceiving s = true then [.update topic] else [])
  others : ∀ topic, ∀ place ∉ r.places,
    (r.notify topic).registry.outboxes[place]? = r.outboxes[place]?
  delivered : ∀ topic, (r.notify topic).delivered =
    r.sessions.countP fun s => topic ∈ s.topics ∧ r.isReceiving s = true
  order : ∀ topic order, order.Perm (r.subscribers topic) →
    (tellInOrder topic order r).registry = (r.notify topic).registry ∧
      (tellInOrder topic order r).delivered = (r.notify topic).delivered ∧
      (tellInOrder topic order r).notices.Perm (r.notify topic).notices

theorem Sound.tells (h : r.Sound) : r.Tells where
  sessions topic := notify_sessions topic r
  receiving topic s := notify_isReceiving topic r s
  queued topic s hs := h.queued_notify topic hs
  others topic place hplace := notify_outbox_of_not_mem hplace
  delivered topic := delivered_notify topic r
  order topic order horder := by
    rw [notify_eq_tellInOrder]
    exact tellInOrder_perm horder topic r

/-- Over every history, the notices queued for an accepted connect are, in order, one for
each change that was told while its session had this outbox, was subscribed to the topic
and somebody took from the outbox, and nothing else is queued.  Telling a topic once more
leaves the sessions as they are, and counts those for which it queues a notice, in
whichever order they are told. -/
theorem fans_out_exactly (events : List Event) :
    (∀ id place before since, Accepted id place before since events →
      (empty.after events).outboxes[place]? = some (outboxAfter id place since) ∧
        (outboxAfter id place since).frames.map Frame.encode =
          (toldOver id place [] since).map ("UPDATE\n\n" ++ ·) ∧
        ∀ topic, Hears id place topic since ↔ ∃ s ∈ (empty.after events).sessions,
          s.outbox = place ∧ topic ∈ s.topics ∧ (empty.after events).isReceiving s = true) ∧
      (empty.after events).Tells := by
  refine ⟨fun id place before since h => ⟨h.outbox, ?_, fun topic => ⟨?_, ?_⟩⟩,
    (sound_after events).tells⟩
  · rw [outboxAfter, List.map_map]
    exact List.map_congr_left fun topic _ => encode_update topic
  · intro hhears
    obtain ⟨s, hs, -, hplace, -⟩ := exists_of_standing? (h.standing? hhears.1)
    exact ⟨s, hs, hplace, (h.hears_iff_of_mem topic h.outbox hs hplace).mp hhears⟩
  · rintro ⟨s, hs, hplace, htaken⟩
    exact (h.hears_iff_of_mem topic h.outbox hs hplace).mpr htaken

/-- Two sessions subscribe to a topic, and it is told.  Nobody takes from the outbox of the
second any more, and it is told.  The first leaves, and it is told.  The first returns, and
it is told. -/
def comingsAndGoings : List Event :=
  [.call (.connect "a"), .call (.subscribe "a" "t"), .call (.connect "b"),
    .call (.subscribe "b" "t"), .notified "t", .dropped 1, .notified "t",
    .call (.disconnect "a"), .notified "t", .call (.connect "a"), .notified "t"]

/-- The first session is told twice, the second once, and the first is not told any more
when it returns. -/
theorem comingsAndGoings_fan_out :
    (empty.after comingsAndGoings).outboxes[0]? = some ⟨[.update "t", .update "t"], true⟩ ∧
      (empty.after comingsAndGoings).outboxes[1]? = some ⟨[.update "t"], false⟩ ∧
      (empty.after comingsAndGoings).outboxes[2]? = some ⟨[], true⟩ := by
  have hfirst : Accepted "a" 0 [] (comingsAndGoings.drop 1) comingsAndGoings :=
    ⟨rfl, by decide, rfl⟩
  have hsecond : Accepted "b" 1 (comingsAndGoings.take 2) (comingsAndGoings.drop 3)
      comingsAndGoings := ⟨rfl, by decide, by decide⟩
  have hreturned : Accepted "a" 2 (comingsAndGoings.take 9) (comingsAndGoings.drop 10)
      comingsAndGoings := ⟨rfl, by decide, by decide⟩
  have hall := (fans_out_exactly comingsAndGoings).1
  refine ⟨(hall _ _ _ _ hfirst).1.trans ?_, (hall _ _ _ _ hsecond).1.trans ?_,
    (hall _ _ _ _ hreturned).1.trans ?_⟩
  · decide
  · decide
  · decide

end Registry
end BotFleet
