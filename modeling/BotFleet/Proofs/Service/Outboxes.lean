import BotFleet.Proofs.Service.Run
import BotFleet.Proofs.Socket

/-
The outboxes of a running service.

Requests and sockets get at the registry through its calls alone, apart from the replies
that a socket queues in its own outbox.  So in whatever state the service is, each session
has an outbox and no two sessions have the same one.
-/

namespace BotFleet

open Registry (Sound)

namespace Socket

variable {id : SessionId} {place : Nat} {item : Item} {r : Registry}

theorem sound_reply {reply : Reply} (h : r.Sound) (hreply : reply? id item r = some reply) :
    reply.registry.Sound := by
  cases item with
  | text payload =>
    cases hreply
    unfold handle
    split
    · exact h
    · rename_i frame hframe
      split
      · rename_i changed r' happly
        have hrun := run_callOf id frame r
        rw [happly] at hrun
        have hnext := h.next (.call (callOf id frame))
        rwa [Registry.next, hrun] at hnext
      · exact h
  | binary bytes =>
    cases hreply
    exact h
  | ping | close | lost => cases hreply

theorem sound_answer (h : r.Sound) : (answer id place item r).1.Sound := by
  unfold answer
  split
  · rename_i reply hreply
    exact (sound_reply h hreply).modify _ _
  · exact h

theorem sound_step (h : r.Sound) : (step id place item r).1.Sound := by
  unfold step
  dsimp only
  split
  · exact (sound_answer h).next (.call (.disconnect id))
  · exact sound_answer h

end Socket

namespace Service
namespace State

variable {c : Context} {d : Setup} {s : State}

theorem sound_announce {r : Registry} (h : r.Sound) (change : Option Change) :
    (announce change r).registry.Sound := by
  cases change with
  | none => exact h
  | some change =>
    obtain ⟨t, ht⟩ := change.exists_topic
    show (r.notifyChange change).registry.Sound
    rw [Registry.notifyChange_registry ht]
    exact h.next (.notified t.path)

theorem sound_perform (h : s.registry.Sound) (action : Action Answer) :
    (s.perform action).state.registry.Sound := by
  rcases hrun : action.run s.fleet with ⟨failure | a, fleet⟩
  · rw [perform_of_error hrun]
    exact h
  · rw [perform_of_ok hrun]
    exact sound_announce h a.change

theorem sound_openSocket (h : s.registry.Sound) : (s.openSocket c).state.registry.Sound := by
  unfold openSocket
  split
  · rename_i registry hconnect
    have hnext := h.next (.call (.connect c.session))
    rwa [Registry.next, Registry.Call.run, hconnect] at hnext
  · exact h

theorem sound_serve {r : Http.Request} (h : s.registry.Sound) :
    (s.serve c r).state.registry.Sound := by
  rw [serve_state]
  split
  · exact sound_perform h _
  · split
    · exact sound_openSocket h
    · exact h

/-- Whatever happens, no two sessions come to share an outbox. -/
theorem sound_next (h : s.registry.Sound) (e : Event) : (s.next d e).registry.Sound := by
  cases e with
  | request m r => exact sound_serve h
  | received id item =>
    show (s.receive id item).registry.Sound
    unfold receive
    split
    · exact Socket.sound_step h
    · exact h
  | dropped place => exact h.next (.dropped place)
  | daemon pending otherwise => exact h

theorem StartsFrom.registry {store : Store} (h : s.StartsFrom d store) : s.registry = .empty := by
  obtain ⟨m, draws, password, after, link, -, rfl⟩ := h.eq
  rfl

theorem Reachable.registry_sound (h : Reachable d s) : s.registry.Sound := by
  have hempty : Registry.empty.Sound := Registry.sound_after []
  induction h with
  | started h => exact h.registry ▸ hempty
  | restarted _ h => exact h.registry ▸ hempty
  | next _ e ih => exact sound_next ih e

end State
end Service
end BotFleet
