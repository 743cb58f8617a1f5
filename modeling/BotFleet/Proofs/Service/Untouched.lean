import BotFleet.Proofs.Service.Orphan

/-
Requests that fail.

The status of an answer tells what became of the request.  Whatever an operation or
the opening of a socket can change is answered with a status below 400, so a status of
400 or above is the answer to a request that was turned away on its way to an operation
or to an operation that failed, and either leaves everything but the link to the daemon
as it was.
-/

namespace BotFleet
namespace Service

open Http (Request)
open Json (Message)

namespace Answer

@[simp] theorem status_shown (body : Json) : (shown body).status = 200 := rfl

@[simp] theorem status_changed (body : Json) (change : Change) :
    (changed body change).status = 200 := rfl

@[simp] theorem status_created (body : Json) (change : Change) :
    (created body change).status = 201 := rfl

@[simp] theorem status_done (change : Option Change) : (done change).status = 204 := rfl

end Answer

/-- No operation succeeds with the status of a failure. -/
theorem Effect.status_lt {c : Context} {sender : Sender} {f f' : Fleet} {op : Operation}
    {a : Answer} (h : Effect c sender f op a f') : a.status < 400 := by
  cases h <;> simp

namespace State

variable {d : Setup} {c : Context} {s : State} {m : Moment} {r : Request}

/-- An operation that is answered as a failure has changed nothing but the link to the
daemon, and nobody is told of it. -/
theorem perform_of_isFailure {sender : Sender} {op : Operation} (hs : s.fleet.store.Sound)
    (hfailure : (s.perform (op.perform c sender)).response.isFailure = true) :
    s.fleet.Alike (s.perform (op.perform c sender)).state.fleet ∧
      (s.perform (op.perform c sender)).state.registry = s.registry := by
  rcases perform_cases (c := c) hs sender op with
    ⟨a, fleet, heffect, hperform⟩ | ⟨failure, fleet, halike, hperform⟩
  · have hstatus : 400 ≤ a.status := by
      rw [hperform] at hfailure
      exact of_decide_eq_true hfailure
    have := heffect.status_lt
    omega
  · rw [hperform]
    exact ⟨halike, rfl⟩

/-- A socket that is opened is never answered as a failure. -/
theorem status_of_opens (h : s.opens c r = true) : (s.serve c r).response.status = 101 := by
  simp only [opens, Bool.and_eq_true, beq_iff_eq, decide_eq_true_eq] at h
  obtain ⟨⟨⟨⟨hverb, hroute⟩, hidentify⟩, hallowed⟩, hcheck⟩ := h
  cases hsender : Sender.identify c s.fleet.store r.headers r.target with
  | error failure =>
    rw [hsender] at hidentify
    cases hidentify
  | ok sender =>
    cases hhandshake : Http.Handshake.check r with
    | error rejection =>
      rw [hhandshake] at hcheck
      cases hcheck
    | ok u =>
      rw [serve_of_identify hverb hroute (by simp) hsender, finish_status, proceed,
        if_pos (List.contains_iff_mem.mp hallowed), hhandshake]
      show (s.openSocket c).response.status = 101
      unfold openSocket
      split <;> rfl

/-- A request that is answered with a status of 400 or above leaves all tables, the
running instances and the registry with everything that is queued as they were. -/
theorem untouched_of_failed (hs : Reachable d s)
    (hfailed : 400 ≤ (s.serve (d.context m) r).response.status) :
    let after := (s.serve (d.context m) r).state
    after.fleet.store = s.fleet.store ∧
      after.fleet.control.running = s.fleet.control.running ∧ after.registry = s.registry := by
  intro after
  have hstate : after = (s.serve (d.context m) r).state := rfl
  rw [serve_state] at hstate
  cases hasked : s.asked (d.context m) r with
  | some admitted =>
    obtain ⟨sender, op⟩ := admitted
    rw [serve_of_asked hasked, finish_status] at hfailed
    rw [hasked] at hstate
    obtain ⟨halike, hregistry⟩ := perform_of_isFailure hs.sound (decide_eq_true hfailed)
    rw [hstate]
    exact ⟨halike.store, halike.running, hregistry⟩
  | none =>
    rw [hasked] at hstate
    by_cases hopens : s.opens (d.context m) r = true
    · rw [status_of_opens hopens] at hfailed
      omega
    · have hsame : after = s := hstate.trans (if_neg hopens)
      rw [hsame]
      exact ⟨rfl, rfl, rfl⟩

/-- The instance is stored, and the daemon refuses whatever it is asked. -/
def refusing : State := withRadio (first (.answered 500 "")).fleet.control

theorem reachable_refusing : Reachable .plain refusing := by
  rw [refusing, ← next_createRadio]
  exact (reachable_first _).next _

/-- A start that the daemon refuses was sent to it, and that is all that comes of it. -/
theorem untouched_of_refused_start :
    ∃ served, served = refusing.serve (Setup.plain.context .epoch) startRadio ∧
      served.response.status = 502 ∧ served.state.fleet.control.link.exchanges.length = 1 ∧
      served.state.fleet.store = refusing.fleet.store ∧
      served.state.fleet.control.running = refusing.fleet.control.running ∧
      served.state.registry = refusing.registry := by
  have hserved : refusing.serve (Setup.plain.context .epoch) startRadio =
      finish (Setup.plain.context .epoch) startRadio
        (refusing.perform (Instances.start Table.firstId)) :=
    serve_of_asked (asked_startRadio rfl)
  have hstatus :
      (refusing.serve (Setup.plain.context .epoch) startRadio).response.status = 502 := by
    rw [hserved, finish_status]
    rfl
  refine ⟨_, rfl, hstatus, ?_, untouched_of_failed (m := .epoch) reachable_refusing ?_⟩
  · rw [hserved]
    rfl
  · rw [hstatus]
    decide

end State
end Service
end BotFleet
