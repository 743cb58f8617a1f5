import BotFleet.Proofs.Daemon.Interleaving

/-
What callers may rely on, however many of them call at the same time.

For each call that the daemon has acknowledged there is one receipt (`Attested`).  The
receipts only grow, and a call that has returned is over (`Since`), so the receipts that
are new since some moment belong to calls that had not returned by then.  If all of
these want to start one instance, there is at most one such receipt, because the orders
that are acknowledged for an instance take turns.
-/

namespace BotFleet
namespace Daemon

/-! ## Receipts -/

/-- The daemon has acknowledged the request of the call. -/
def Phase.isAcknowledged : Phase → Bool
  | .answered outcome => outcome.isAcknowledged
  | .settled (.ok done) | .returned (.ok done) => done
  | _ => false

section Turn

variable {n : Nat} {command : Command} {phase phase' : Phase} {b b' : Board}

/-- A call gets its receipt in the turn in which it is acknowledged. -/
theorem Turn.acknowledged_cases (h : Turn n command phase b phase' b') :
    (phase'.isAcknowledged = phase.isAcknowledged ∧ b'.acknowledged = b.acknowledged) ∨
      phase.isAcknowledged = false ∧ phase'.isAcknowledged = true ∧
        b'.acknowledged = b.acknowledged ++ [⟨n, command⟩] := by
  cases h with
  | take | skip | check | send => exact .inl ⟨rfl, rfl⟩
  | receive outcome =>
    cases houtcome : outcome.isAcknowledged with
    | false => exact .inl ⟨houtcome, List.append_nil _⟩
    | true => exact .inr ⟨rfl, houtcome, rfl⟩
  | record hresult => exact .inl ⟨(Outcome.result_eq_ok_iff.mp hresult).symm, rfl⟩
  | fail hresult => exact .inl ⟨(Outcome.isAcknowledged_of_error hresult).symm, rfl⟩
  | @release _ result => cases result <;> exact .inl ⟨rfl, rfl⟩

theorem Turn.ne_returned (h : Turn n command phase b phase' b') (result : Except Fault Bool) :
    phase ≠ .returned result := by
  rintro rfl
  cases h

end Turn

/-- The receipt is of a call that has been acknowledged. -/
def Receipt.IsOf (r : Receipt) (calls : List Call) : Prop :=
  ∃ phase, calls[r.call]? = some ⟨r.command, phase⟩ ∧ phase.isAcknowledged = true

section IsOf

variable {calls : List Call} {r : Receipt} {n : Nat} {command : Command} {phase phase' : Phase}

theorem Receipt.isOf_iff_of_get (hn : calls[r.call]? = some ⟨command, phase⟩) :
    r.IsOf calls ↔ r.command = command ∧ phase.isAcknowledged = true := by
  constructor
  · rintro ⟨phase', hget, hacknowledged⟩
    cases hn.symm.trans hget
    exact ⟨rfl, hacknowledged⟩
  · rintro ⟨rfl, hacknowledged⟩
    exact ⟨phase, hn, hacknowledged⟩

theorem Receipt.isOf_set_of_ne (hn : calls[n]? = some ⟨command, phase⟩) (hr : r.call ≠ n) :
    r.IsOf (calls.set n ⟨command, phase'⟩) ↔ r.IsOf calls := by
  rw [IsOf, getElem?_set_call hn, if_neg hr]
  rfl

/-- A call that has just been made is not acknowledged. -/
theorem Receipt.isOf_concat (command : Command) :
    r.IsOf (calls ++ [⟨command, .waiting⟩]) ↔ r.IsOf calls := by
  constructor
  · rintro ⟨phase, hget, hacknowledged⟩
    rcases getElem?_concat_eq_some.mp hget with hold | ⟨-, hnew⟩
    · exact ⟨phase, hold, hacknowledged⟩
    · cases hnew
      cases hacknowledged
  · rintro ⟨phase, hget, hacknowledged⟩
    exact ⟨phase, getElem?_concat_eq_some.mpr (.inl hget), hacknowledged⟩

end IsOf

/-- For each call that has been acknowledged there is one receipt, and there are no
others. -/
structure Attested (s : Traffic) : Prop where
  mem_iff : ∀ r, r ∈ s.board.acknowledged ↔ r.IsOf s.calls
  nodup : s.board.acknowledged.Nodup

namespace Attested

variable {s s' : Traffic}

theorem step (h : Attested s) (hstep : s.Step s') : Attested s' := by
  cases hstep with
  | call command => exact ⟨fun r => (h.mem_iff r).trans (Receipt.isOf_concat command).symm, h.nodup⟩
  | @turn n command phase phase' board hn ht =>
    have hafter : (s.calls.set n ⟨command, phase'⟩)[n]? = some ⟨command, phase'⟩ := by
      rw [getElem?_set_call hn, if_pos rfl]
    rcases ht.acknowledged_cases with ⟨hsame, hboard⟩ | ⟨hbefore, hnow, hboard⟩
    · refine ⟨fun ⟨m, c⟩ => ?_, hboard ▸ h.nodup⟩
      rw [hboard, h.mem_iff]
      by_cases hm : m = n
      · subst hm
        rw [Receipt.isOf_iff_of_get hn, Receipt.isOf_iff_of_get hafter, hsame]
      · rw [Receipt.isOf_set_of_ne hn hm]
    · refine ⟨fun ⟨m, c⟩ => ?_, ?_⟩
      · rw [hboard, List.mem_append, List.mem_singleton, h.mem_iff]
        by_cases hm : m = n
        · subst hm
          rw [Receipt.isOf_iff_of_get hn, Receipt.isOf_iff_of_get hafter, hbefore, hnow]
          simp
        · rw [Receipt.isOf_set_of_ne hn hm]
          exact or_iff_left fun he => hm (congrArg Receipt.call he)
      · have hnew : Receipt.mk n command ∉ s.board.acknowledged := by
          rw [h.mem_iff, Receipt.isOf_iff_of_get hn, hbefore]
          exact nofun
        rw [hboard, List.nodup_append]
        refine ⟨h.nodup, by simp, fun a ha b hb => ?_⟩
        rintro rfl
        exact hnew (List.mem_singleton.mp hb ▸ ha)

theorem fresh (running : List Id) : Attested (.fresh running) where
  mem_iff _ := ⟨nofun, fun ⟨_, hget, _⟩ => nomatch hget⟩
  nodup := List.nodup_nil

theorem of_leads {running : List Id} (h : Traffic.Leads (.fresh running) s) : Attested s := by
  induction h with
  | refl => exact fresh running
  | tail _ hstep ih => exact ih.step hstep

end Attested

/-! ## Since some moment -/

/-- What the one moment has left to the other. -/
structure Since (w s : Traffic) : Prop where
  receipts : w.board.acknowledged <+: s.board.acknowledged
  returned : ∀ (n : Nat) (command : Command) (result : Except Fault Bool),
    w.calls[n]? = some ⟨command, .returned result⟩ → s.calls[n]? = some ⟨command, .returned result⟩

namespace Since

variable {w s s' : Traffic}

theorem step (h : Since w s) (hstep : s.Step s') : Since w s' := by
  cases hstep with
  | call command =>
    exact ⟨h.receipts, fun n c result hn =>
      getElem?_concat_eq_some.mpr (.inl (h.returned n c result hn))⟩
  | @turn n command phase phase' board hn ht =>
    refine ⟨h.receipts.trans ?_, fun m c result hm => ?_⟩
    · rcases ht.acknowledged_cases with ⟨-, hboard⟩ | ⟨-, -, hboard⟩
      · exact hboard ▸ List.prefix_rfl
      · exact hboard ▸ List.prefix_append _ _
    · have hreturned := h.returned m c result hm
      have hne : m ≠ n := by
        rintro rfl
        cases hn.symm.trans hreturned
        exact ht.ne_returned result rfl
      rw [getElem?_set_call hn, if_neg hne, hreturned]

theorem of_leads (h : w.Leads s) : Since w s := by
  induction h with
  | refl => exact ⟨List.prefix_rfl, fun _ _ _ h => h⟩
  | tail _ hstep ih => exact ih.step hstep

end Since

/-- Nobody had the lock of the instance, and whatever call for it had not returned by then
is to start it. -/
structure OnlyStarts (id : Id) (w s : Traffic) : Prop where
  free : id ∉ w.board.locked
  starts : ∀ (n : Nat) (call : Call), s.calls[n]? = some call → call.command.id = id →
    call.command.order = .start ∨ ∃ result, w.calls[n]? = some ⟨call.command, .returned result⟩

namespace OnlyStarts

variable {initial : List Id} {id : Id} {w s : Traffic} {new : List Receipt}

/-- A new receipt is of a call that had not returned. -/
theorem orders_eq_start (h : OnlyStarts id w s) (hw : Traffic.Leads (.fresh initial) w)
    (hs : w.Leads s) (hnew : s.board.acknowledged = w.board.acknowledged ++ new) :
    ∀ o ∈ orders id new, o = .start := by
  intro o ho
  obtain ⟨r, hr, rfl⟩ := List.mem_map.mp ho
  obtain ⟨hmem, hid⟩ := List.mem_filter.mp hr
  have hattested := Attested.of_leads (hw.trans hs)
  obtain ⟨phase, hget, hacknowledged⟩ :=
    (hattested.mem_iff r).mp (hnew ▸ List.mem_append_right _ hmem)
  rcases h.starts r.call _ hget (beq_iff_eq.mp hid) with hstart | ⟨result, hreturned⟩
  · exact hstart
  · have hsame := (Since.of_leads hs).returned _ _ _ hreturned
    have hphase : phase = .returned result :=
      congrArg Call.phase (Option.some.inj (hget.symm.trans hsame))
    have hold : r ∈ w.board.acknowledged :=
      ((Attested.of_leads hw).mem_iff r).mpr ⟨_, hreturned, hphase ▸ hacknowledged⟩
    have hnodup := hattested.nodup
    rw [hnew] at hnodup
    exact absurd rfl ((List.nodup_append.mp hnodup).2.2 r hold r hmem)

theorem length_le_one (h : OnlyStarts id w s) (hw : Traffic.Leads (.fresh initial) w)
    (hs : w.Leads s) (hnew : s.board.acknowledged = w.board.acknowledged ++ new) :
    (orders id new).length ≤ 1 := by
  have halternate := (Orderly.of_leads (hw.trans hs) id).alternate
  rw [hnew, orders_append, Order.alternate_append] at halternate
  exact Order.length_le_one_of_alternate halternate.2 (h.orders_eq_start hw hs hnew)

/-- A call that has returned with a success since then has its receipt since then. -/
theorem mem_new {n : Nat} {command : Command} (h : OnlyStarts command.id w s)
    (hw : Traffic.Leads (.fresh initial) w) (hs : w.Leads s)
    (hnew : s.board.acknowledged = w.board.acknowledged ++ new)
    (hreturned : s.calls[n]? = some ⟨command, .returned (.ok true)⟩)
    (hbefore : w.calls[n]? ≠ some ⟨command, .returned (.ok true)⟩) :
    Receipt.mk n command ∈ new := by
  have hmem : Receipt.mk n command ∈ s.board.acknowledged :=
    ((Attested.of_leads (hw.trans hs)).mem_iff _).mpr ⟨_, hreturned, rfl⟩
  rw [hnew, List.mem_append] at hmem
  refine hmem.resolve_left fun hold => ?_
  obtain ⟨phase, hget, hacknowledged⟩ := ((Attested.of_leads hw).mem_iff _).mp hold
  -- A call between its receipt and its return would have had the lock.
  obtain ⟨unrecorded, hguarded, -⟩ := (Orderly.of_leads hw command.id).guarded
  have hnone := (hguarded.none_of_free h.free).2 n ⟨command, phase⟩
  cases phase with
  | waiting => cases hacknowledged
  | returned result =>
    have hsame := (Since.of_leads hs).returned _ _ _ hget
    cases hsame.symm.trans hreturned
    exact hbefore hget
  | holding | ready | sent | answered | settled => exact hnone ⟨hget, rfl, rfl⟩

theorem filter_eq {n : Nat} {command : Command} (h : OnlyStarts command.id w s)
    (hw : Traffic.Leads (.fresh initial) w) (hs : w.Leads s)
    (hnew : s.board.acknowledged = w.board.acknowledged ++ new)
    (hreturned : s.calls[n]? = some ⟨command, .returned (.ok true)⟩)
    (hbefore : w.calls[n]? ≠ some ⟨command, .returned (.ok true)⟩) :
    new.filter (·.command.id == command.id) = [⟨n, command⟩] := by
  have hmem : Receipt.mk n command ∈ new.filter (·.command.id == command.id) :=
    List.mem_filter.mpr ⟨h.mem_new hw hs hnew hreturned hbefore, beq_self_eq_true _⟩
  have hlength := h.length_le_one hw hs hnew
  rw [orders, List.length_map] at hlength
  obtain ⟨r, hr⟩ := List.length_eq_one_iff.mp
    (Nat.le_antisymm hlength (List.length_pos_of_mem hmem))
  rw [hr] at hmem ⊢
  rw [List.mem_singleton.mp hmem]

end OnlyStarts

/-! ## Any calls in any order -/

/-- What holds for an instance at every moment, whichever of the calls has come how far. -/
structure Serialised (initial : List Id) (id : Id) (s : Traffic) : Prop where
  /-- One request is in flight at a time. -/
  in_flight : ∀ (m n : Nat) (c d : Command), s.calls[m]? = some ⟨c, .sent⟩ →
    s.calls[n]? = some ⟨d, .sent⟩ → c.id = id → d.id = id → m = n
  alternate : Order.Alternate (if id ∈ initial then .stop else .start)
    (orders id s.board.acknowledged)
  /-- All that is acknowledged is on the record, but for one request of whoever has the
  lock. -/
  recorded : ∃ unrecorded,
    orders id s.board.acknowledged = orders id s.board.recorded ++ unrecorded ∧
      unrecorded.length ≤ 1 ∧ (id ∉ s.board.locked → unrecorded = [])
  running_iff : id ∈ s.board.running ↔
    (orders id s.board.recorded).getLast? = some .start ∨
      orders id s.board.recorded = [] ∧ id ∈ initial
  /-- Of several starts with no stop among them one is acknowledged at most, and no other
  returns a success. -/
  one_start : ∀ w : Traffic, Traffic.Leads (.fresh initial) w → w.Leads s → OnlyStarts id w s →
    ∃ new, s.board.acknowledged = w.board.acknowledged ++ new ∧ (orders id new).length ≤ 1 ∧
      ∀ (n : Nat) (command : Command), s.calls[n]? = some ⟨command, .returned (.ok true)⟩ →
        w.calls[n]? ≠ some ⟨command, .returned (.ok true)⟩ → command.id = id →
          new.filter (·.command.id == id) = [⟨n, command⟩]

namespace Traffic

variable {initial : List Id} {s : Traffic}

/-- However many calls there are for whichever instances, in whatever order they take
their turns and whatever the daemon replies, the calls for an instance do not get into
each other's way. -/
theorem serialised (h : Leads (.fresh initial) s) (id : Id) : Serialised initial id s := by
  have horderly := Orderly.of_leads h id
  obtain ⟨unrecorded, hguarded, hacknowledged⟩ := horderly.guarded
  exact
    { in_flight := fun m n c d hm hn hc hd => hguarded.eq_of_holds ⟨hm, hc, rfl⟩ ⟨hn, hd, rfl⟩
      alternate := horderly.alternate
      recorded := ⟨unrecorded, hacknowledged, hguarded.length_le,
        fun hfree => (hguarded.none_of_free hfree).1⟩
      running_iff := horderly.running_iff
      one_start := fun w hw hs honly => by
        obtain ⟨new, hnew⟩ := (Since.of_leads hs).receipts
        refine ⟨new, hnew.symm, honly.length_le_one hw hs hnew.symm, ?_⟩
        rintro n command hreturned hbefore rfl
        exact honly.filter_eq hw hs hnew.symm hreturned hbefore }

/-! ## Two callers -/

def lobby : Instance :=
  ⟨Id.zero, "lobby", "localhost", ⟨9988, by decide⟩, none, none, none, false⟩

/-- Two callers have started the same instance at the same time. -/
def twice : Traffic where
  calls := [⟨.start lobby, .returned (.ok true)⟩, ⟨.start lobby, .returned (.ok false)⟩]
  board := ⟨[lobby.id], [], [⟨0, .start lobby⟩], [⟨0, .start lobby⟩]⟩

theorem leads_twice : Leads (.fresh []) twice := by
  have hcalls : Leads (.fresh [])
      ⟨[⟨.start lobby, .waiting⟩, ⟨.start lobby, .waiting⟩], ⟨[], [], [], []⟩⟩ :=
    .tail (.single (.call (.start lobby))) (.call (.start lobby))
  have hfirst := hcalls.tail (.turn (n := 0) rfl (.take List.not_mem_nil))
  have hcheck := hfirst.tail (.turn (n := 0) rfl (.check (by decide)))
  have hsend := hcheck.tail (.turn (n := 0) rfl .send)
  have hreceive := hsend.tail (.turn (n := 0) rfl (.receive (.answered 200 "")))
  have hrecord := hreceive.tail (.turn (n := 0) rfl (.record rfl))
  have hrelease := hrecord.tail (.turn (n := 0) rfl .release)
  have hsecond := hrelease.tail (.turn (n := 1) rfl (.take (by decide)))
  have hskip := hsecond.tail (.turn (n := 1) rfl (.skip (by decide)))
  exact hskip.tail (.turn (n := 1) rfl .release)

/-- One of the two starts it, and the other finds it running. -/
theorem twice_serialised :
    Leads (.fresh []) twice ∧ OnlyStarts lobby.id (.fresh []) twice ∧
      Serialised [] lobby.id twice := by
  refine ⟨leads_twice, ⟨List.not_mem_nil, fun n call hn _ => .inl ?_⟩,
    serialised leads_twice lobby.id⟩
  have hmem := List.mem_of_getElem? hn
  simp only [twice, List.mem_cons, List.not_mem_nil, or_false] at hmem
  rcases hmem with rfl | rfl <;> rfl

end Traffic
end Daemon
end BotFleet
