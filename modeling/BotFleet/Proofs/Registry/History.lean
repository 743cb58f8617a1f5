import Mathlib.Data.List.Induction
import BotFleet.Proofs.Registry
import BotFleet.Proofs.Registry.Standing

/-
The registry after a history.

Whether a session is registered, what its topics are and where its outbox stands can be
read from what happened: its last accepted connect must not have been followed by its
disconnect, and of each topic its last word since then counts.  One event concerns one
session and at most one of its topics, and the run lemmas add one event at the end of a
history.
-/

namespace BotFleet
namespace Registry

/-- What can happen to a registry. -/
inductive Event where
  | call (c : Call)
  /-- Nobody takes what is queued at a place from now on. -/
  | dropped (place : Nat)
  /-- The subscribers of a topic are told that its listing changed. -/
  | notified (topic : String)
deriving DecidableEq

/-- The event is the word of a session about a topic. -/
def Event.isAbout (id : SessionId) (topic : String) (e : Event) : Bool :=
  e == .call (.subscribe id topic) || e == .call (.unsubscribe id topic)

def next (r : Registry) : Event → Registry
  | .call c => (c.run r).2
  | .dropped place => r.dropOutbox place
  | .notified topic => (r.notify topic).registry

def after (r : Registry) (events : List Event) : Registry := events.foldl next r

/-- The last word of a session about a topic is that it subscribes. -/
def LastSubscribes (id : SessionId) (topic : String) (events : List Event) : Prop :=
  (events.filter (·.isAbout id topic)).getLast? = some (.call (.subscribe id topic))

instance (id : SessionId) (topic : String) (events : List Event) :
    Decidable (LastSubscribes id topic events) :=
  inferInstanceAs (Decidable (_ = _))

/-- A connect of a session was accepted and gave its outbox a place, with these events
before and since. -/
structure Accepted (id : SessionId) (place : Nat) (before since events : List Event) : Prop where
  split : events = before ++ .call (.connect id) :: since
  answer : ((Call.connect id).run (empty.after before)).1 = .ok true
  place_eq : place = (empty.after before).outboxes.length

/-- No later connect of the session was accepted. -/
structure LastAccepted (id : SessionId) (place : Nat) (before since events : List Event) : Prop
    extends Accepted id place before since events where
  last : ∀ place' before' since', Accepted id place' before' since' events →
    before'.length ≤ before.length

variable {r : Registry} {id : SessionId} {topic : String} {topics : Set String} {place : Nat}
variable {e : Event} {before since events : List Event}

/-! ## One event -/

theorem isAbout_eq_false_of_ne {c : Call} (h : id ≠ c.session) :
    (Event.call c).isAbout id topic = false := by
  rw [Event.isAbout, Bool.or_eq_false_iff, beq_eq_false_iff_ne, beq_eq_false_iff_ne]
  constructor <;> rintro ⟨⟩ <;> exact h rfl

theorem standing?_next_of_none (h : r.standing? id = none) (hopen : e ≠ .call (.connect id)) :
    (r.next e).standing? id = none := by
  cases e with
  | call c =>
    by_cases hid : id = c.session
    · subst hid
      rw [next]
      cases c with
      | connect caller => exact absurd rfl hopen
      | disconnect caller =>
        dsimp only [Call.session] at h ⊢
        rw [run_disconnect_of_none h, h]
      | subscribe caller t =>
        dsimp only [Call.session] at h ⊢
        rw [run_subscribe_of_none h, h]
      | unsubscribe caller t =>
        dsimp only [Call.session] at h ⊢
        rw [run_unsubscribe_of_none h, h]
    · rw [next, standing?_run_of_ne hid, h]
  | dropped place => exact h
  | notified t => rw [next, standing?_congr (notify_sessions t r), h]

theorem standing?_next_connect (h : r.standing? id = none) :
    (r.next (.call (.connect id))).standing? id = some (∅, r.outboxes.length) := by
  obtain ⟨r', hrun, hstanding, -⟩ := run_connect_of_none h
  rw [next, hrun, hstanding, Function.update_self]

theorem standing?_next_disconnect (r : Registry) (id : SessionId) :
    (r.next (.call (.disconnect id))).standing? id = none := by
  rw [next, Call.run, standing?_disconnect, Function.update_self]

/-- Until its disconnect a session keeps its outbox, and a topic is only gained and lost by
its own word. -/
theorem standing?_next_of_some (h : r.standing? id = some (topics, place))
    (hstay : e ≠ .call (.disconnect id)) :
    (r.next e).standing? id = some
      ({t | if e.isAbout id t then e = .call (.subscribe id t) else t ∈ topics}, place) := by
  have hquiet (hnone : ∀ t, e.isAbout id t = false) :
      {t | if e.isAbout id t then e = .call (.subscribe id t) else t ∈ topics} = topics := by
    ext t
    simp [hnone t]
  cases e with
  | call c =>
    by_cases hid : id = c.session
    · subst hid
      cases c with
      | connect caller =>
        dsimp only [Call.session] at h hquiet ⊢
        rw [next, run_connect_of_some h, hquiet fun _ => rfl]
        exact h
      | disconnect caller => exact absurd rfl hstay
      | subscribe caller t =>
        dsimp only [Call.session] at h ⊢
        obtain ⟨added, r', hrun, -, hstanding, -⟩ := run_subscribe_of_some t h
        rw [next, hrun, hstanding, Function.update_self]
        congr 2
        ext u
        by_cases hu : u = t
        · simp [Event.isAbout, hu]
        · simp [Event.isAbout, hu, Ne.symm hu]
      | unsubscribe caller t =>
        dsimp only [Call.session] at h ⊢
        obtain ⟨removed, r', hrun, -, hstanding, -⟩ := run_unsubscribe_of_some t h
        rw [next, hrun, hstanding, Function.update_self]
        congr 2
        ext u
        by_cases hu : u = t
        · simp [Event.isAbout, hu]
        · simp [Event.isAbout, hu, Ne.symm hu]
    · rw [next, standing?_run_of_ne hid, h, hquiet fun _ => isAbout_eq_false_of_ne hid]
  | dropped place => rw [hquiet fun _ => rfl]; exact h
  | notified t => rw [next, standing?_congr (notify_sessions t r), h, hquiet fun _ => rfl]

/-! ## Histories -/

theorem after_append (r : Registry) (a b : List Event) : r.after (a ++ b) = (r.after a).after b :=
  List.foldl_append

theorem after_cons (r : Registry) (e : Event) (events : List Event) :
    r.after (e :: events) = (r.next e).after events :=
  rfl

theorem after_concat (r : Registry) (events : List Event) (e : Event) :
    r.after (events ++ [e]) = (r.after events).next e :=
  after_append r events [e]

theorem lastSubscribes_concat :
    LastSubscribes id topic (events ++ [e]) ↔
      if e.isAbout id topic then e = .call (.subscribe id topic)
      else LastSubscribes id topic events := by
  rw [LastSubscribes, List.filter_append]
  cases habout : e.isAbout id topic <;> simp [habout, LastSubscribes]

/-- Since its connect was accepted, and until its disconnect, a session is subscribed to
what it last said it subscribes to. -/
theorem standing?_after_of_some (h : r.standing? id = some (∅, place))
    (hstay : .call (.disconnect id) ∉ since) :
    (r.after since).standing? id = some ({t | LastSubscribes id t since}, place) := by
  induction since using List.reverseRecOn with
  | nil => simpa [after, LastSubscribes] using h
  | append_singleton since e ih =>
    rw [List.mem_append, List.mem_singleton, not_or] at hstay
    have hnext := standing?_next_of_some (ih hstay.1) (Ne.symm hstay.2)
    simp only [after_concat, lastSubscribes_concat]
    exact hnext

theorem answer_connect_iff :
    ((Call.connect id).run r).1 = .ok true ↔ r.standing? id = none := by
  cases he : r.standing? id with
  | none =>
    obtain ⟨r', hrun, -⟩ := run_connect_of_none he
    simp [hrun]
  | some e => simp [run_connect_of_some he]

theorem Accepted.standing? (h : Accepted id place before since events)
    (hstay : .call (.disconnect id) ∉ since) :
    (empty.after events).standing? id = some ({t | LastSubscribes id t since}, place) := by
  have hopened := standing?_next_connect (answer_connect_iff.mp h.answer)
  rw [h.split, h.place_eq, after_append, after_cons]
  exact standing?_after_of_some hopened hstay

/-- While a session is registered no connect of it is accepted. -/
theorem Accepted.last (h : Accepted id place before since events)
    (hstay : .call (.disconnect id) ∉ since) : LastAccepted id place before since events := by
  refine { h with last := fun place' before' since' h' => ?_ }
  by_contra hlater
  -- The later connect stands among the events since this one, when it is still in force.
  obtain ⟨mid, rfl, hmid⟩ | ⟨mid, rfl, -⟩ :=
    List.append_eq_append_iff.mp (h.split.symm.trans h'.split)
  · cases mid with
    | nil => simp at hlater
    | cons e mid =>
      rw [List.cons_append, List.cons.injEq] at hmid
      obtain ⟨rfl, rfl⟩ := hmid
      have hinForce : Accepted id place before mid _ := ⟨rfl, h.answer, h.place_eq⟩
      have hstanding := hinForce.standing? fun hmem => hstay (List.mem_append_left _ hmem)
      rw [answer_connect_iff.mp h'.answer] at hstanding
      cases hstanding
  · simp at hlater

/-- A registered session had a connect accepted and was not disconnected since. -/
theorem exists_accepted (h : (empty.after events).standing? id ≠ none) :
    ∃ place before since,
      Accepted id place before since events ∧ .call (.disconnect id) ∉ since := by
  induction events using List.reverseRecOn with
  | nil => exact absurd rfl h
  | append_singleton events e ih =>
    rw [after_concat] at h
    cases he : (empty.after events).standing? id with
    | none =>
      have hopen : e = .call (.connect id) := by
        by_contra hne
        exact h (standing?_next_of_none he hne)
      subst hopen
      exact ⟨_, events, [], ⟨rfl, answer_connect_iff.mpr he, rfl⟩, List.not_mem_nil⟩
    | some standing =>
      obtain ⟨place, before, since, haccepted, hstay⟩ := ih (by simp [he])
      refine ⟨place, before, since ++ [e], ⟨?_, haccepted.answer, haccepted.place_eq⟩, ?_⟩
      · rw [haccepted.split, List.append_assoc, List.cons_append]
      · rw [List.mem_append, List.mem_singleton, not_or]
        refine ⟨hstay, ?_⟩
        rintro rfl
        exact h (standing?_next_disconnect _ id)

/-- What the registry holds is what its history says: a session is registered exactly when
its last accepted connect was not followed by its disconnect, with the topics it last said
it subscribes to and the outbox of that connect.  What it answers to the next call, whoever
makes it, says whether it is another one afterwards. -/
theorem matches_history (events : List Event) :
    (∀ id topics place, (empty.after events).standing? id = some (topics, place) ↔
      ∃ before since, LastAccepted id place before since events ∧
        .call (.disconnect id) ∉ since ∧ topics = {t | LastSubscribes id t since}) ∧
      (empty.after events).Answers := by
  refine ⟨fun id topics place => ⟨fun h => ?_, ?_⟩, answers _⟩
  · obtain ⟨place', before, since, haccepted, hstay⟩ := exists_accepted (h.trans_ne nofun)
    have hstanding := haccepted.standing? hstay
    rw [h] at hstanding
    cases hstanding
    exact ⟨before, since, haccepted.last hstay, hstay, rfl⟩
  · rintro ⟨before, since, hlast, hstay, rfl⟩
    exact hlast.toAccepted.standing? hstay

/-- A refused connect leaves a session as it is, and a reconnect starts without topics and
with another outbox. -/
example :
    let opened : List Event := [.call (.connect "a"), .call (.subscribe "a" "t")]
    let again : List Event := [.call (.connect "a")]
    (empty.after (opened ++ again)).sessions = [⟨"a", ["t"], 0⟩] ∧
      (empty.after (opened ++ [.call (.disconnect "a")] ++ again)).sessions = [⟨"a", [], 1⟩] := by
  decide

end Registry
end BotFleet
