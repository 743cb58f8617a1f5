import BotFleet.Proofs.Daemon.Calls

/-
What the lock of an instance is worth.

Whatever the calls are and however their steps fall between each other, at most one of
the calls for an instance is between taking its lock and releasing it.  Nobody else
alters the record of that instance in the meantime, so the request that such a call
sends is still the one that is due when the daemon acknowledges it.  `Guarded` says
which call that is and how far it has come, and `Orderly` adds what follows for the
record and for the receipts of the instance.  Each step keeps it, and a step of a call
for another instance touches nothing in it.
-/

namespace BotFleet
namespace Daemon

/-! ## Orders that take turns -/

namespace Order

/-- The order that is due when some have been given, and the first one if none has. -/
def dueAfter (first : Order) (given : List Order) : Order :=
  (given.getLast?.map other).getD first

variable {first o x : Order} {given later : List Order}

theorem dueAfter_cons : dueAfter first (o :: given) = dueAfter o.other given := by
  rw [dueAfter, dueAfter, List.getLast?_cons]
  cases given.getLast? <;> rfl

theorem dueAfter_concat : dueAfter first (given ++ [o]) = o.other := by
  rw [dueAfter, List.getLast?_concat]
  rfl

theorem dueAfter_eq_stop :
    first.dueAfter given = .stop ↔ given.getLast? = some .start ∨ given = [] ∧ first = .stop := by
  rw [dueAfter]
  cases hlast : given.getLast? with
  | none => simp [List.getLast?_eq_none_iff.mp hlast]
  | some o =>
    have hne : given ≠ [] := by
      rintro rfl
      cases hlast
    cases o <;> simp [hne, other]

theorem alternate_append : Alternate first (given ++ later) ↔
    Alternate first given ∧ Alternate (dueAfter first given) later := by
  induction given generalizing first with
  | nil => exact ⟨fun h => ⟨trivial, h⟩, fun h => h.2⟩
  | cons o given ih =>
    rw [List.cons_append, Alternate, Alternate, ih, and_assoc, dueAfter_cons]
    exact and_congr_right fun h => by rw [h]

/-- Orders that are all the same do not take turns more than once. -/
theorem length_le_one_of_alternate (h : Alternate first given) (hall : ∀ o ∈ given, o = x) :
    given.length ≤ 1 := by
  match given with
  | [] | [_] => simp
  | o :: o' :: _ =>
    obtain ⟨rfl, ho', -⟩ := h
    have hsame : o' = o := (hall o' (by simp)).trans (hall o (by simp)).symm
    rw [ho'] at hsame
    cases o <;> cases hsame

end Order

/-- The order that is due for an instance by the record. -/
def due (running : List Id) (id : Id) : Order := if id ∈ running then .stop else .start

theorem due_of_mem {running : List Id} {id : Id} (h : id ∈ running) : due running id = .stop :=
  if_pos h

theorem due_of_not_mem {running : List Id} {id : Id} (h : id ∉ running) :
    due running id = .start :=
  if_neg h

theorem due_eq_stop {running : List Id} {id : Id} : due running id = .stop ↔ id ∈ running := by
  by_cases h : id ∈ running
  · simp [due_of_mem h, h]
  · simp [due_of_not_mem h, h]

theorem due_congr {a b : List Id} {id : Id} (h : id ∈ a ↔ id ∈ b) : due a id = due b id := by
  by_cases hb : id ∈ b
  · rw [due_of_mem (h.mpr hb), due_of_mem hb]
  · rw [due_of_not_mem (mt h.mp hb), due_of_not_mem hb]

namespace Command

variable {command : Command} {running : List Id}

theorem due_of_not_isMet (h : ¬command.IsMet running) : due running command.id = command.order := by
  rw [IsMet] at h
  by_cases hmem : command.id ∈ running
  · rw [due_of_mem hmem]
    cases horder : command.order with
    | start => simp [horder, hmem] at h
    | stop => rfl
  · rw [due_of_not_mem hmem]
    cases horder : command.order with
    | start => rfl
    | stop => simp [horder, hmem] at h

theorem due_record : due (command.record running) command.id = command.order.other := by
  cases horder : command.order with
  | start => exact due_of_mem (mem_record.mpr (by rw [if_pos rfl, horder]))
  | stop =>
    refine due_of_not_mem fun h => ?_
    rw [mem_record, if_pos rfl, horder] at h
    cases h

end Command

/-! ## Receipts -/

theorem orders_append (id : Id) (a b : List Receipt) :
    orders id (a ++ b) = orders id a ++ orders id b := by
  rw [orders, List.filter_append, List.map_append]
  rfl

theorem orders_singleton (n : Nat) (command : Command) :
    orders command.id [⟨n, command⟩] = [command.order] := by
  rw [orders, List.filter_cons_of_pos (by simp)]
  rfl

theorem orders_singleton_of_ne {id : Id} {command : Command} (h : id ≠ command.id) (n : Nat) :
    orders id [⟨n, command⟩] = [] := by
  rw [orders, List.filter_cons_of_neg (by simpa using h.symm)]
  rfl

/-! ## Phases -/

/-- The call has its lock. -/
def Phase.holds : Phase → Bool
  | .waiting | .returned _ => false
  | _ => true

/-- The call has found something to do, and the record is not up to date with it. -/
def Phase.isCommitted : Phase → Bool
  | .ready | .sent | .answered _ => true
  | _ => false

/-- What the daemon has acknowledged to a call and the record is not up to date with. -/
def Call.unrecorded (call : Call) : List Order :=
  match call.phase with
  | .answered outcome => if outcome.isAcknowledged then [call.command.order] else []
  | _ => []

theorem Call.unrecorded_answered (command : Command) (outcome : Outcome) :
    unrecorded ⟨command, .answered outcome⟩ =
      if outcome.isAcknowledged then [command.order] else [] :=
  rfl

theorem Call.length_unrecorded_le (call : Call) : call.unrecorded.length ≤ 1 := by
  unfold unrecorded
  split
  · split <;> simp
  · simp

/-! ## What a turn leaves alone -/

/-- What belongs to an instance is the same on both boards. -/
structure Board.Spares (id : Id) (b b' : Board) : Prop where
  locked : id ∈ b'.locked ↔ id ∈ b.locked
  running : id ∈ b'.running ↔ id ∈ b.running
  acknowledged : orders id b'.acknowledged = orders id b.acknowledged
  recorded : orders id b'.recorded = orders id b.recorded

theorem Board.Spares.refl (id : Id) (b : Board) : b.Spares id b :=
  ⟨Iff.rfl, Iff.rfl, rfl, rfl⟩

theorem Turn.spares {n : Nat} {command : Command} {phase phase' : Phase} {b b' : Board} {id : Id}
    (h : Turn n command phase b phase' b') (hid : id ≠ command.id) : b.Spares id b' := by
  have hsame := Board.Spares.refl id b
  cases h with
  | skip | check | send | fail => exact hsame
  | take =>
    refine { hsame with locked := ?_ }
    rw [List.mem_cons]
    exact or_iff_right hid
  | receive outcome =>
    refine { hsame with acknowledged := ?_ }
    rw [orders_append]
    split
    · rw [orders_singleton_of_ne hid, List.append_nil]
    · exact List.append_nil _
  | record =>
    refine { hsame with running := ?_, recorded := ?_ }
    · rw [Command.mem_record, if_neg hid]
    · rw [orders_append, orders_singleton_of_ne hid, List.append_nil]
  | release =>
    refine { hsame with locked := ?_ }
    rw [List.mem_filter, bne_iff_ne]
    exact and_iff_left hid

/-! ## Who has the lock -/

/-- The call is for the instance and has its lock. -/
structure Holds (calls : List Call) (id : Id) (n : Nat) (call : Call) : Prop where
  get : calls[n]? = some call
  id_eq : call.command.id = id
  holds : call.phase.holds = true

section Holds

variable {calls : List Call} {id : Id} {n m : Nat} {call call' c : Call}

theorem getElem?_set_call (hn : calls[n]? = some call) (m : Nat) :
    (calls.set n call')[m]? = if m = n then some call' else calls[m]? := by
  have hlt : n < calls.length := (List.getElem?_eq_some_iff.mp hn).1
  rw [List.getElem?_set]
  by_cases hm : m = n
  · rw [if_pos hm, if_pos hm.symm, if_pos hlt]
  · rw [if_neg hm, if_neg (Ne.symm hm)]

theorem getElem?_concat_eq_some :
    (calls ++ [call])[n]? = some c ↔ calls[n]? = some c ∨ n = calls.length ∧ call = c := by
  rw [List.getElem?_append]
  split
  case isTrue hlt => simp [Nat.ne_of_lt hlt]
  case isFalse hge =>
    have hout : calls[n]? = none := List.getElem?_eq_none (Nat.le_of_not_lt hge)
    have hn : n - calls.length = 0 ↔ n = calls.length := by omega
    rw [hout, List.getElem?_singleton]
    simp [hn]

/-- A call that has just been made has no lock. -/
theorem holds_concat (command : Command) :
    Holds (calls ++ [⟨command, .waiting⟩]) id m c ↔ Holds calls id m c := by
  constructor
  · intro h
    rcases getElem?_concat_eq_some.mp h.get with hget | ⟨-, rfl⟩
    · exact ⟨hget, h.id_eq, h.holds⟩
    · cases h.holds
  · intro h
    exact ⟨getElem?_concat_eq_some.mpr (.inl h.get), h.id_eq, h.holds⟩

theorem Holds.set_self (hn : calls[n]? = some call) (hid : call'.command.id = id)
    (hholds : call'.phase.holds = true) : Holds (calls.set n call') id n call' :=
  ⟨by rw [getElem?_set_call hn, if_pos rfl], hid, hholds⟩

theorem Holds.of_set (hn : calls[n]? = some call) (h : Holds (calls.set n call') id m c)
    (hm : m ≠ n) : Holds calls id m c := by
  have hget := h.get
  rw [getElem?_set_call hn, if_neg hm] at hget
  exact ⟨hget, h.id_eq, h.holds⟩

theorem holds_set_of_ne (hn : calls[n]? = some call) (hid : id ≠ call.command.id)
    (hid' : id ≠ call'.command.id) : Holds (calls.set n call') id m c ↔ Holds calls id m c := by
  constructor
  · intro h
    refine h.of_set hn fun hm => ?_
    have hget := h.get
    rw [getElem?_set_call hn, if_pos hm] at hget
    cases hget
    exact hid' h.id_eq.symm
  · intro h
    have hm : m ≠ n := by
      rintro rfl
      cases hn.symm.trans h.get
      exact hid h.id_eq.symm
    exact ⟨by rw [getElem?_set_call hn, if_neg hm, h.get], h.id_eq, h.holds⟩

end Holds

/-- At most one call has the lock of an instance, and what it has found still holds.  The
list is what the daemon has acknowledged to it and the record is not up to date with. -/
inductive Guarded (id : Id) (s : Traffic) : List Order → Prop
  | free (hfree : id ∉ s.board.locked) (hnone : ∀ m c, ¬Holds s.calls id m c) : Guarded id s []
  | held {n : Nat} {call : Call} (hlocked : id ∈ s.board.locked) (hcall : Holds s.calls id n call)
    (honly : ∀ m c, Holds s.calls id m c → m = n)
    (hdue : call.phase.isCommitted = true → due s.board.running id = call.command.order) :
    Guarded id s call.unrecorded

namespace Guarded

variable {id : Id} {s s' : Traffic} {orders : List Order} {n m : Nat} {call c : Call}

theorem length_le (h : Guarded id s orders) : orders.length ≤ 1 := by
  cases h with
  | free => exact Nat.zero_le 1
  | held => exact Call.length_unrecorded_le _

theorem none_of_free (h : Guarded id s orders) (hfree : id ∉ s.board.locked) :
    orders = [] ∧ ∀ m c, ¬Holds s.calls id m c := by
  cases h with
  | free _ hnone => exact ⟨rfl, hnone⟩
  | held hlocked => exact absurd hlocked hfree

theorem eq_of_holds (h : Guarded id s orders) (hn : Holds s.calls id n call)
    (hm : Holds s.calls id m c) : n = m := by
  cases h with
  | free _ hnone => exact absurd hn (hnone n call)
  | held _ _ honly => exact (honly n call hn).trans (honly m c hm).symm

/-- A call that has the lock is the one that the list is about. -/
theorem of_holds (h : Guarded id s orders) (hn : Holds s.calls id n call) :
    orders = call.unrecorded ∧ id ∈ s.board.locked ∧
      (call.phase.isCommitted = true → due s.board.running id = call.command.order) := by
  cases h with
  | free _ hnone => exact absurd hn (hnone n call)
  | @held m c hlocked hcall honly hdue =>
    cases honly n call hn
    cases hn.get.symm.trans hcall.get
    exact ⟨rfl, hlocked, hdue⟩

theorem congr (h : Guarded id s orders)
    (hholds : ∀ m c, Holds s'.calls id m c ↔ Holds s.calls id m c)
    (hboard : s.board.Spares id s'.board) : Guarded id s' orders := by
  cases h with
  | free hfree hnone =>
    exact .free (mt hboard.locked.mp hfree) fun m c hm => hnone m c ((hholds m c).mp hm)
  | held hlocked hcall honly hdue =>
    refine .held (hboard.locked.mpr hlocked) ((hholds _ _).mpr hcall)
      (fun m c hm => honly m c ((hholds m c).mp hm)) fun hcommitted => ?_
    rw [due_congr hboard.running]
    exact hdue hcommitted

/-- The call that has the lock moves on and keeps it. -/
theorem move (h : Guarded id s orders) (hn : Holds s.calls id n call) {call' : Call} {board : Board}
    (hid : call'.command.id = id) (hholds : call'.phase.holds = true) (hlocked : id ∈ board.locked)
    (hdue : call'.phase.isCommitted = true → due board.running id = call'.command.order) :
    Guarded id ⟨s.calls.set n call', board⟩ call'.unrecorded := by
  refine .held hlocked (.set_self hn.get hid hholds) (fun m c hm => ?_) hdue
  by_cases hne : m = n
  · exact hne
  · exact h.eq_of_holds (hm.of_set hn.get hne) hn

end Guarded

/-! ## Every moment -/

/-- What the receipts of an instance have to do with the record of it. -/
structure Orderly (initial : Order) (id : Id) (s : Traffic) : Prop where
  guarded : ∃ unrecorded, Guarded id s unrecorded ∧
    orders id s.board.acknowledged = orders id s.board.recorded ++ unrecorded
  due_eq : due s.board.running id = initial.dueAfter (orders id s.board.recorded)
  alternate : initial.Alternate (orders id s.board.acknowledged)

namespace Orderly

variable {initial : Order} {id : Id} {s s' : Traffic} {n : Nat} {command : Command}
  {phase phase' : Phase} {board : Board}

/-- Nothing happens to the instance. -/
theorem congr (h : Orderly initial id s)
    (hholds : ∀ m c, Holds s'.calls id m c ↔ Holds s.calls id m c)
    (hboard : s.board.Spares id s'.board) : Orderly initial id s' := by
  obtain ⟨unrecorded, hguarded, hacknowledged⟩ := h.guarded
  refine ⟨⟨unrecorded, hguarded.congr hholds hboard, ?_⟩, ?_, ?_⟩
  · rw [hboard.acknowledged, hboard.recorded, hacknowledged]
  · rw [due_congr hboard.running, hboard.recorded, h.due_eq]
  · rw [hboard.acknowledged]
    exact h.alternate

/-- A call that has the lock moves on without a change to the board. -/
theorem stay (h : Orderly initial command.id s) (hn : s.calls[n]? = some ⟨command, phase⟩)
    (hholds : phase.holds = true) (hholds' : phase'.holds = true)
    (hdue : phase'.isCommitted = true → due s.board.running command.id = command.order)
    (hunrecorded : Call.unrecorded ⟨command, phase'⟩ = Call.unrecorded ⟨command, phase⟩) :
    Orderly initial command.id ⟨s.calls.set n ⟨command, phase'⟩, s.board⟩ := by
  obtain ⟨unrecorded, hguarded, hacknowledged⟩ := h.guarded
  have hcall : Holds s.calls command.id n ⟨command, phase⟩ := ⟨hn, rfl, hholds⟩
  obtain ⟨rfl, hlocked, -⟩ := hguarded.of_holds hcall
  refine ⟨⟨_, hguarded.move hcall rfl hholds' hlocked hdue, ?_⟩, h.due_eq, h.alternate⟩
  rw [hunrecorded]
  exact hacknowledged

theorem take (h : Orderly initial command.id s) (hn : s.calls[n]? = some ⟨command, .waiting⟩)
    (hfree : command.id ∉ s.board.locked) :
    Orderly initial command.id ⟨s.calls.set n ⟨command, .holding⟩,
      { s.board with locked := command.id :: s.board.locked }⟩ := by
  obtain ⟨unrecorded, hguarded, hacknowledged⟩ := h.guarded
  obtain ⟨rfl, hnone⟩ := hguarded.none_of_free hfree
  refine ⟨⟨_, .held List.mem_cons_self (.set_self hn rfl rfl) (fun m c hm => ?_) nofun,
    hacknowledged⟩, h.due_eq, h.alternate⟩
  by_cases hne : m = n
  · exact hne
  · exact absurd (hm.of_set hn hne) (hnone m c)

/-- The record has not changed since the call looked at it, so its request is due when it
is acknowledged. -/
theorem receive (h : Orderly initial command.id s) (hn : s.calls[n]? = some ⟨command, .sent⟩)
    (outcome : Outcome) :
    Orderly initial command.id ⟨s.calls.set n ⟨command, .answered outcome⟩,
      { s.board with
        acknowledged :=
          s.board.acknowledged ++ if outcome.isAcknowledged then [⟨n, command⟩] else [] }⟩ := by
  obtain ⟨unrecorded, hguarded, hacknowledged⟩ := h.guarded
  have hcall : Holds s.calls command.id n ⟨command, .sent⟩ := ⟨hn, rfl, rfl⟩
  obtain ⟨rfl, hlocked, hdue⟩ := hguarded.of_holds hcall
  have hbefore : orders command.id s.board.acknowledged = orders command.id s.board.recorded :=
    hacknowledged.trans (List.append_nil _)
  have hdueAfter : initial.dueAfter (orders command.id s.board.acknowledged) = command.order := by
    rw [hbefore, ← h.due_eq]
    exact hdue rfl
  have hafter : orders command.id (s.board.acknowledged ++
        if outcome.isAcknowledged then [⟨n, command⟩] else []) =
      orders command.id s.board.acknowledged ++ Call.unrecorded ⟨command, .answered outcome⟩ := by
    rw [orders_append, Call.unrecorded_answered]
    split
    · rw [orders_singleton]
    · rfl
  refine ⟨⟨_, hguarded.move hcall rfl rfl hlocked fun _ => hdue rfl, ?_⟩, h.due_eq, ?_⟩
  · rw [hafter, hbefore]
  · rw [hafter, Order.alternate_append, hdueAfter, Call.unrecorded_answered]
    refine ⟨h.alternate, ?_⟩
    split
    · exact ⟨rfl, trivial⟩
    · trivial

theorem record {outcome : Outcome} (h : Orderly initial command.id s)
    (hn : s.calls[n]? = some ⟨command, .answered outcome⟩) (hresult : outcome.result = .ok ()) :
    Orderly initial command.id ⟨s.calls.set n ⟨command, .settled (.ok true)⟩,
      { s.board with
        running := command.record s.board.running
        recorded := s.board.recorded ++ [⟨n, command⟩] }⟩ := by
  obtain ⟨unrecorded, hguarded, hacknowledged⟩ := h.guarded
  have hcall : Holds s.calls command.id n ⟨command, .answered outcome⟩ := ⟨hn, rfl, rfl⟩
  obtain ⟨rfl, hlocked, -⟩ := hguarded.of_holds hcall
  have hunrecorded : Call.unrecorded ⟨command, .answered outcome⟩ = [command.order] :=
    if_pos (Outcome.result_eq_ok_iff.mp hresult)
  have hrecorded : orders command.id (s.board.recorded ++ [⟨n, command⟩]) =
      orders command.id s.board.recorded ++ [command.order] := by
    rw [orders_append, orders_singleton]
  refine ⟨⟨_, hguarded.move hcall rfl rfl hlocked nofun, ?_⟩, ?_, h.alternate⟩
  · rw [hrecorded, hacknowledged, hunrecorded]
    exact (List.append_nil _).symm
  · rw [hrecorded, Order.dueAfter_concat]
    exact Command.due_record

theorem release {result : Except Fault Bool} (h : Orderly initial command.id s)
    (hn : s.calls[n]? = some ⟨command, .settled result⟩) :
    Orderly initial command.id ⟨s.calls.set n ⟨command, .returned result⟩,
      { s.board with locked := s.board.locked.filter (· != command.id) }⟩ := by
  obtain ⟨unrecorded, hguarded, hacknowledged⟩ := h.guarded
  have hcall : Holds s.calls command.id n ⟨command, .settled result⟩ := ⟨hn, rfl, rfl⟩
  obtain ⟨rfl, -, -⟩ := hguarded.of_holds hcall
  refine ⟨⟨[], .free (by simp) fun m c hm => ?_, hacknowledged⟩, h.due_eq, h.alternate⟩
  by_cases hne : m = n
  · have hget := hm.get
    rw [getElem?_set_call hn, if_pos hne] at hget
    cases hget
    cases hm.holds
  · exact hne (hguarded.eq_of_holds (hm.of_set hn hne) hcall)

/-- A call for the instance takes a turn. -/
theorem turn (h : Orderly initial command.id s) (hn : s.calls[n]? = some ⟨command, phase⟩)
    (ht : Turn n command phase s.board phase' board) :
    Orderly initial command.id ⟨s.calls.set n ⟨command, phase'⟩, board⟩ := by
  cases ht with
  | take hfree => exact h.take hn hfree
  | skip => exact h.stay hn rfl rfl nofun rfl
  | check hmet => exact h.stay hn rfl rfl (fun _ => Command.due_of_not_isMet hmet) rfl
  | send =>
    obtain ⟨unrecorded, hguarded, -⟩ := h.guarded
    obtain ⟨-, -, hdue⟩ := hguarded.of_holds ⟨hn, rfl, rfl⟩
    exact h.stay hn rfl rfl (fun _ => hdue rfl) rfl
  | receive outcome => exact h.receive hn outcome
  | record hresult => exact h.record hn hresult
  | fail hresult =>
    refine h.stay hn rfl rfl nofun ?_
    rw [Call.unrecorded_answered, Outcome.isAcknowledged_of_error hresult]
    rfl
  | release => exact h.release hn

theorem step (h : Orderly initial id s) (hstep : s.Step s') : Orderly initial id s' := by
  cases hstep with
  | call command => exact h.congr (fun m c => holds_concat command) (.refl id s.board)
  | @turn n command phase phase' board hn ht =>
    by_cases hid : id = command.id
    · subst hid
      exact h.turn hn ht
    · exact h.congr (fun m c => holds_set_of_ne hn hid hid) (ht.spares hid)

theorem fresh (running : List Id) (id : Id) : Orderly (due running id) id (.fresh running) where
  guarded := ⟨[], .free List.not_mem_nil (fun _ _ h => nomatch h.get), rfl⟩
  due_eq := rfl
  alternate := trivial

theorem of_leads {running : List Id} (h : Traffic.Leads (.fresh running) s) (id : Id) :
    Orderly (due running id) id s := by
  induction h with
  | refl => exact fresh running id
  | tail _ hstep ih => exact ih.step hstep

/-- The last request on the record of requests decides. -/
theorem running_iff {running : List Id} (h : Orderly (due running id) id s) :
    id ∈ s.board.running ↔ (orders id s.board.recorded).getLast? = some .start ∨
      orders id s.board.recorded = [] ∧ id ∈ running := by
  rw [← due_eq_stop, h.due_eq, Order.dueAfter_eq_stop, due_eq_stop]

end Orderly

end Daemon
end BotFleet
