import BotFleet.Proofs.Frame
import BotFleet.Proofs.Socket

/-
One text message of a session.

Either it is a frame of the client and the session is registered, or it comes back.  In the
first case the topic in the frame is among the topics of the session afterwards, or is not,
and this is all that has changed.  In the second case nothing has changed, and the client
can read its message from the answer, since that is a frame with the message as its body
and a body may be any text.  A message that looks like a frame of the server is no
exception.

The theorem this file exists for is `handle_exact`.
-/

namespace BotFleet
namespace Socket

/-- The topics of a session after a frame of its client. -/
def topicsAfter (frame : Frame ClientMethod) (topics : Set String) : Set String :=
  match frame.method with
  | .subscribe => insert frame.body topics
  | .unsubscribe => topics \ {frame.body}

variable {r r' : Registry} {id : SessionId} {payload : String} {frame : Frame ClientMethod}
  {topics : Set String} {place : Nat}

theorem standing?_callOf (frame : Frame ClientMethod) (h : r.standing? id = some (topics, place)) :
    ((callOf id frame).run r).2.standing? =
      Function.update r.standing? id (some (topicsAfter frame topics, place)) := by
  obtain ⟨method, body⟩ := frame
  cases method with
  | subscribe =>
    obtain ⟨added, r', hrun, -, hstanding, -⟩ := Registry.run_subscribe_of_some body h
    rw [callOf, hrun]
    exact hstanding
  | unsubscribe =>
    obtain ⟨removed, r', hrun, -, hstanding, -⟩ := Registry.run_unsubscribe_of_some body h
    rw [callOf, hrun]
    exact hstanding

/-! ## The three ways it goes -/

theorem handle_of_undecodable {fault : Frame.Fault}
    (h : (Frame.decode payload : Except Frame.Fault (Frame ClientMethod)) = .error fault) :
    handle id payload r = ⟨.bad payload, r, []⟩ := by
  rw [handle, h]

theorem handle_of_unregistered
    (h : (Frame.decode payload : Except Frame.Fault (Frame ClientMethod)) = .ok frame)
    (hnone : r.standing? id = none) :
    ∃ notices, handle id payload r = ⟨.bad payload, r, notices⟩ := by
  have hrefused : apply frame id r = .error (.notConnected id) := by
    have hfind := Registry.standing?_eq_none_iff.mp hnone
    obtain ⟨method, body⟩ := frame
    cases method with
    | subscribe => rw [apply, Registry.subscribe, hfind]
    | unsubscribe => rw [apply, Registry.unsubscribe, hfind]
  refine ⟨(handle id payload r).notices, ?_⟩
  rw [handle, h]
  dsimp only
  rw [hrefused]

theorem handle_of_registered
    (h : (Frame.decode payload : Except Frame.Fault (Frame ClientMethod)) = .ok frame)
    (hsome : r.standing? id = some (topics, place)) :
    ∃ r', handle id payload r = ⟨.ok, r', []⟩ ∧ r'.outboxes = r.outboxes ∧
      r'.standing? = Function.update r.standing? id (some (topicsAfter frame topics, place)) := by
  obtain ⟨changed, happly⟩ := apply_of_standing frame hsome
  refine ⟨_, ?_, outboxes_apply happly, standing?_callOf frame hsome⟩
  rw [handle, h]
  dsimp only
  rw [happly]

/-! ## Every message -/

/-- What becomes of a text message of a session. -/
structure Handled (id : SessionId) (payload : String) (r : Registry) (reply : Reply) : Prop where
  ok_iff : reply.frame = .ok ↔
    (∃ frame, (Frame.decode payload : Except Frame.Fault (Frame ClientMethod)) = .ok frame) ∧
      r.isConnected id = true
  accepted : ∀ frame topics place,
    (Frame.decode payload : Except Frame.Fault (Frame ClientMethod)) = .ok frame →
    r.standing? id = some (topics, place) →
    reply.registry.outboxes = r.outboxes ∧
      reply.registry.standing? =
        Function.update r.standing? id (some (topicsAfter frame topics, place))
  rejected : reply.frame ≠ .ok →
    reply.frame = ⟨.bad, payload⟩ ∧ reply.registry = r ∧
      (Frame.decode reply.frame.encode : Except Frame.Fault (Frame ServerMethod)) =
        .ok ⟨.bad, payload⟩

/-- A message that comes back can be read from the answer, whatever it is. -/
theorem handled_of_returned {notices : List Notice}
    (h : ∀ frame, (Frame.decode payload : Except Frame.Fault (Frame ClientMethod)) = .ok frame →
      r.standing? id = none) : Handled id payload r ⟨.bad payload, r, notices⟩ where
  ok_iff := by
    refine ⟨nofun, fun ⟨⟨frame, hframe⟩, hconnected⟩ => ?_⟩
    rw [Registry.isConnected_eq, h frame hframe] at hconnected
    cases hconnected
  accepted frame topics place hframe hsome := by
    rw [h frame hframe] at hsome
    cases hsome
  rejected _ := ⟨rfl, rfl, Frame.decode_eq_ok_iff.mpr rfl⟩

/-- A message is answered with an empty `OK` if it is a frame of the client and the session
is registered, and then the topics of this session are what the frame makes of them.
Otherwise nothing changes and the message comes back. -/
theorem handle_exact (r : Registry) (id : SessionId) (payload : String) :
    Handled id payload r (handle id payload r) := by
  cases hdecode : (Frame.decode payload : Except Frame.Fault (Frame ClientMethod)) with
  | error fault =>
    rw [handle_of_undecodable hdecode]
    refine handled_of_returned fun frame hframe => ?_
    rw [hdecode] at hframe
    cases hframe
  | ok frame =>
    cases hstanding : r.standing? id with
    | none =>
      obtain ⟨notices, hreply⟩ := handle_of_unregistered hdecode hstanding
      rw [hreply]
      exact handled_of_returned fun _ _ => hstanding
    | some standing =>
      obtain ⟨r', hreply, houtboxes, hafter⟩ := handle_of_registered hdecode hstanding
      rw [hreply]
      refine ⟨⟨fun _ => ⟨⟨frame, hdecode⟩, ?_⟩, fun _ => rfl⟩, ?_, fun h => absurd rfl h⟩
      · rw [Registry.isConnected_eq, hstanding]
        rfl
      · intro frame' topics place hframe hsome
        rw [hdecode] at hframe
        cases hframe
        rw [hstanding] at hsome
        cases hsome
        exact ⟨houtboxes, hafter⟩

end Socket
end BotFleet
