import BotFleet.Proofs.Daemon.Ledger
import Mathlib.Logic.Relation

/-
Commands that are under way at the same time.

A command is carried out in steps, and between any two of them other calls may take
theirs: the lock of the instance is taken, the record of running instances is looked at,
a request is sent, its reply is received, the record is brought up to date, and the lock
is released.  A call waits for a lock that is not free.  Which call moves next is left
open, and so is what the daemon replies.

A call that nothing comes in between does what the command does, which is `alone`.
-/

namespace BotFleet
namespace Daemon

/-! ## The parts of a command -/

/-- What is concluded from the outcome of a request. -/
def Outcome.result : Outcome → Except Fault Unit
  | .answered status text =>
    if isSuccess status then .ok () else .error (.status status (detailOf text))
  | .dropped detail | .unsent detail => .error (.unreachable detail)

theorem Outcome.result_eq_ok_iff {outcome : Outcome} :
    outcome.result = .ok () ↔ outcome.isAcknowledged = true := by
  cases outcome with
  | answered status text =>
    rw [result, isAcknowledged]
    cases isSuccess status <;> simp
  | dropped | unsent => simp [result, isAcknowledged]

theorem Outcome.isAcknowledged_of_error {outcome : Outcome} {fault : Fault}
    (h : outcome.result = .error fault) : outcome.isAcknowledged = false := by
  rw [Bool.eq_false_iff, ne_eq, ← result_eq_ok_iff, h]
  exact nofun

theorem Link.post_fst (l : Link) (path : String) (body : Json) :
    (l.post path body).1 = l.next.result := by
  rw [post]
  cases l.next <;> rfl

namespace Command

/-- The record already has the instance as the command wants it. -/
def IsMet (command : Command) (running : List Id) : Prop :=
  running.contains command.id = (command.order == .start)

instance (command : Command) (running : List Id) : Decidable (command.IsMet running) :=
  inferInstanceAs (Decidable (_ = _))

/-- The record after the command. -/
def record : Command → List Id → List Id
  | .start i, running => Control.insert i.id running
  | .stop id, running => running.filter (· != id)

theorem mem_record {command : Command} {running : List Id} {id : Id} :
    id ∈ command.record running ↔
      if id = command.id then command.order = .start else id ∈ running := by
  cases command with
  | start i =>
    rw [record, Control.mem_insert]
    by_cases h : id = i.id <;> simp [Command.id, order, h]
  | stop target =>
    rw [record, List.mem_filter, bne_iff_ne]
    by_cases h : id = target <;> simp [Command.id, order, h]

theorem run_of_isMet {command : Command} {running : List Id} (h : command.IsMet running)
    (link : Link) : command.run ⟨running, link⟩ = (.ok false, ⟨running, link⟩) :=
  run_of_idle h

theorem running_of_run {command : Command} {c c' : Control} (h : command.run c = (.ok true, c')) :
    c'.running = command.record c.running := by
  cases command with
  | start i =>
    obtain ⟨-, link, -, rfl⟩ := Control.start_eq_ok_true h
    rfl
  | stop id =>
    obtain ⟨-, link, -, rfl⟩ := Control.stop_eq_ok_true h
    rfl

/-- A command that has something to do concludes what it does from the outcome of its
request, and the record follows an acknowledgement. -/
theorem run_of_not_isMet {command : Command} {running : List Id} (h : ¬command.IsMet running)
    (link : Link) :
    (command.run ⟨running, link⟩).1 = link.next.result.map (fun _ => true) ∧
      (command.run ⟨running, link⟩).2.running =
        if link.next.isAcknowledged then command.record running else running := by
  rcases hrun : command.run ⟨running, link⟩ with ⟨fault | _ | _, c'⟩
  · obtain ⟨hpost, hrunning⟩ := run_eq_error hrun
    have hresult : link.next.result = .error fault :=
      (Link.post_fst _ _ _).symm.trans (congrArg Prod.fst hpost)
    rw [hresult, Link.post_eq_error hpost]
    exact ⟨rfl, hrunning⟩
  · exact absurd (run_eq_ok_false hrun).1 h
  · obtain ⟨-, hpost⟩ := run_eq_ok_true hrun
    have hresult : link.next.result = .ok () :=
      (Link.post_fst _ _ _).symm.trans (congrArg Prod.fst hpost)
    rw [hresult, Outcome.result_eq_ok_iff.mp hresult]
    exact ⟨rfl, running_of_run hrun⟩

end Command

/-! ## Calls -/

/-- How far a call has come. -/
inductive Phase where
  /-- It waits for the lock. -/
  | waiting
  | holding
  /-- The record does not make it pointless. -/
  | ready
  /-- Its request is in flight. -/
  | sent
  | answered (outcome : Outcome)
  /-- All is done but to release the lock. -/
  | settled (result : Except Fault Bool)
  | returned (result : Except Fault Bool)

structure Call where
  command : Command
  phase : Phase

/-- What a call gets from the daemon when its request is acknowledged. -/
structure Receipt where
  call : Nat
  command : Command

/-- The orders for an instance among some receipts. -/
def orders (id : Id) (receipts : List Receipt) : List Order :=
  (receipts.filter fun r => r.command.id == id).map fun r => r.command.order

/-- What calls share. -/
structure Board where
  running : List Id
  /-- The instances whose locks are taken. -/
  locked : List Id
  /-- What the daemon has acknowledged, in the order in which its replies were received. -/
  acknowledged : List Receipt
  /-- What the record has been brought up to date with. -/
  recorded : List Receipt

/-- What a call does in one step: how far it comes, and what it makes of the board. -/
inductive Turn (n : Nat) (command : Command) : Phase → Board → Phase → Board → Prop
  | take {b : Board} (hfree : command.id ∉ b.locked) :
    Turn n command .waiting b .holding { b with locked := command.id :: b.locked }
  | skip {b : Board} (hmet : command.IsMet b.running) :
    Turn n command .holding b (.settled (.ok false)) b
  | check {b : Board} (hmet : ¬command.IsMet b.running) : Turn n command .holding b .ready b
  | send {b : Board} : Turn n command .ready b .sent b
  | receive {b : Board} (outcome : Outcome) :
    Turn n command .sent b (.answered outcome) { b with
      acknowledged :=
        b.acknowledged ++ if outcome.isAcknowledged then [⟨n, command⟩] else [] }
  | record {b : Board} {outcome : Outcome} (hresult : outcome.result = .ok ()) :
    Turn n command (.answered outcome) b (.settled (.ok true)) { b with
      running := command.record b.running
      recorded := b.recorded ++ [⟨n, command⟩] }
  | fail {b : Board} {outcome : Outcome} {fault : Fault} (hresult : outcome.result = .error fault) :
    Turn n command (.answered outcome) b (.settled (.error fault)) b
  | release {b : Board} {result : Except Fault Bool} :
    Turn n command (.settled result) b (.returned result)
      { b with locked := b.locked.filter (· != command.id) }

/-- The calls that there have been, in the order in which they were made, and what they
share. -/
structure Traffic where
  calls : List Call
  board : Board

namespace Traffic

/-- No call has been made yet. -/
def fresh (running : List Id) : Traffic := ⟨[], ⟨running, [], [], []⟩⟩

inductive Step : Traffic → Traffic → Prop
  | call {s : Traffic} (command : Command) :
    Step s { s with calls := s.calls ++ [⟨command, .waiting⟩] }
  | turn {s : Traffic} {n : Nat} {command : Command} {phase phase' : Phase} {board : Board}
    (hn : s.calls[n]? = some ⟨command, phase⟩)
    (h : Turn n command phase s.board phase' board) :
    Step s ⟨s.calls.set n ⟨command, phase'⟩, board⟩

/-- Steps of any calls, one after another. -/
abbrev Leads : Traffic → Traffic → Prop := Relation.ReflTransGen Step

/-! ## A call by itself -/

section Alone

variable {calls : List Call} {command : Command} {b b' : Board}

/-- The latest of the calls takes a turn. -/
theorem step_last {phase phase' : Phase} (h : Turn calls.length command phase b phase' b') :
    Step ⟨calls ++ [⟨command, phase⟩], b⟩ ⟨calls ++ [⟨command, phase'⟩], b'⟩ := by
  have hset : (calls ++ [Call.mk command phase]).set calls.length ⟨command, phase'⟩ =
      calls ++ [⟨command, phase'⟩] := by
    simp
  rw [← hset]
  exact .turn List.getElem?_concat_length h

theorem filter_locked (hfree : command.id ∉ b.locked) :
    (command.id :: b.locked).filter (· != command.id) = b.locked := by
  rw [List.filter_cons_of_neg (by simp), List.filter_eq_self]
  intro id hid
  exact bne_iff_ne.mpr fun h => hfree (h ▸ hid)

/-- A call that nothing comes in between leaves behind what its command does. -/
theorem alone (calls : List Call) (hfree : command.id ∉ b.locked) (link : Link) :
    ∃ board, Leads ⟨calls, b⟩
        ⟨calls ++ [⟨command, .returned (command.run ⟨b.running, link⟩).1⟩], board⟩ ∧
      board.running = (command.run ⟨b.running, link⟩).2.running ∧ board.locked = b.locked := by
  have hcall : Step ⟨calls, b⟩ ⟨calls ++ [⟨command, .waiting⟩], b⟩ := .call command
  have htake : Leads ⟨calls, b⟩ ⟨calls ++ [⟨command, .holding⟩],
      { b with locked := command.id :: b.locked }⟩ :=
    .tail (.single hcall) (step_last (.take hfree))
  by_cases hmet : command.IsMet b.running
  · have hskip := htake.tail (step_last (.skip hmet))
    rw [Command.run_of_isMet hmet]
    exact ⟨_, hskip.tail (step_last .release), rfl, filter_locked hfree⟩
  · obtain ⟨hresult, hrunning⟩ := Command.run_of_not_isMet hmet link
    have hsend := (htake.tail (step_last (.check hmet))).tail (step_last .send)
    have hreceive := hsend.tail (step_last (.receive link.next))
    rw [hresult, hrunning]
    cases houtcome : link.next.result with
    | ok =>
      have hrecord := hreceive.tail (step_last (.record houtcome))
      rw [if_pos (Outcome.result_eq_ok_iff.mp houtcome)]
      exact ⟨_, hrecord.tail (step_last .release), rfl, filter_locked hfree⟩
    | error fault =>
      have hfail := hreceive.tail (step_last (.fail houtcome))
      rw [Outcome.isAcknowledged_of_error houtcome]
      exact ⟨_, hfail.tail (step_last .release), rfl, filter_locked hfree⟩

end Alone

end Traffic
end Daemon
end BotFleet
