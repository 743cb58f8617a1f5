import BotFleet.Proofs.Service.Steering

/-
Requests to start and to delete one instance that are under way at the same time.

Each of them looks the instance up, has the daemon do something about it, and then goes
on to its answer; on the way there a deletion takes away what is stored.  What is asked
of the daemon is asked under the lock of the instance, so that is one step, but nothing
keeps others from taking their steps between the look-up and the daemon, or between the
daemon and the store.

A request that nobody comes in between does what its action does, which is `alone`.  But
a start that has found the instance may come to the daemon after the deletion has been
there, and then the instance goes on running without being stored.  The theorem this file
exists for is `orphan_iff_start_last`: with a daemon that acknowledges whatever it is sent,
nothing else leaves an identifier behind.
-/

namespace BotFleet

/-! ## A daemon that acknowledges whatever it is sent -/

namespace Daemon

def Link.Obliging (l : Link) : Prop := ∀ outcome ∈ l.otherwise :: l.pending, outcome.isAcknowledged

section Obliging

variable {l : Link}

theorem Link.Obliging.next (h : l.Obliging) : l.next.isAcknowledged = true := by
  rw [Link.next, List.headD_eq_head?_getD]
  cases hpending : l.pending with
  | nil => exact h _ List.mem_cons_self
  | cons outcome rest =>
    refine h outcome (List.mem_cons_of_mem _ ?_)
    rw [hpending]
    exact List.mem_cons_self

theorem Link.Obliging.record (h : l.Obliging) (path : String) (body : Json) :
    (l.record path body).Obliging := by
  have htail : ∀ outcome ∈ l.otherwise :: l.pending.tail, outcome.isAcknowledged := by
    intro outcome hmem
    rcases List.mem_cons.mp hmem with rfl | hmem
    · exact h _ List.mem_cons_self
    · exact h outcome (List.mem_cons_of_mem _ (List.mem_of_mem_tail hmem))
  unfold Link.record
  split <;> exact htail

/-- A command to such a daemon succeeds. -/
theorem Command.run_of_obliging (command : Command) {c : Control} (h : c.link.Obliging) :
    ∃ done, (command.run c).1 = .ok done ∧ (command.run c).2.link.Obliging := by
  by_cases hidle : command.Idle c
  · rw [run_of_idle hidle]
    exact ⟨false, rfl, h⟩
  · obtain ⟨hlink, hsuccess⟩ := run_of_not_idle hidle
    rw [hlink]
    exact ⟨true, hsuccess.mpr h.next, h.record _ _⟩

end Obliging

end Daemon

namespace Service

open Daemon (Command Control Link Order)

/-! ## The parts of the requests -/

namespace Instances

/-- What a start answers when the daemon has been told. -/
def started (i : Instance) (result : Except Daemon.Fault Bool) : Action Answer := do
  match result with
  | .ok true => return .changed (← view i) .instanceState
  | .ok false => return .shown (← view i)
  | .error fault => Action.fail (.daemon fault)

/-- What a deletion does when the daemon has been told. -/
def remove (id : Id) (result : Except Daemon.Fault Bool) : Action Answer := do
  let _ ← Action.write (Store.deleteInstance id)
  let answer := Answer.done (some .instances)
  match result with
  | .ok _ => return answer
  | .error fault => return { answer with notices := [notStopped id fault] }

end Instances

/-- What a request is for. -/
inductive Wish where
  | start
  | delete
deriving DecidableEq

namespace Wish

def action (id : Id) : Wish → Action Answer
  | start => Instances.start id
  | delete => Instances.delete id

def order : Wish → Order
  | start => .start
  | delete => .stop

/-- What the daemon is told about the instance that was found. -/
def command (i : Instance) : Wish → Command
  | start => .start i
  | delete => .stop i.id

theorem command_id (wish : Wish) {i : Instance} : (wish.command i).id = i.id := by
  cases wish <;> rfl

theorem command_order (wish : Wish) {i : Instance} : (wish.command i).order = wish.order := by
  cases wish <;> rfl

/-- What is left to do when the daemon has been told. -/
def finish (id : Id) (i : Instance) (result : Except Daemon.Fault Bool) : Wish → Action Answer
  | start => Instances.started i result
  | delete => Instances.remove id result

/-- The parts one after another are the whole. -/
theorem action_eq (id : Id) (wish : Wish) :
    wish.action id = (do
      let i ← Instances.find id
      wish.finish id i (← Action.command (wish.command i).run)) := by
  cases wish <;> rfl

end Wish

/-- How far a request has come. -/
inductive Stage where
  | arrived (wish : Wish)
  | found (wish : Wish) (i : Instance)
  | told (wish : Wish) (i : Instance) (result : Except Daemon.Fault Bool)
  | answered (result : Except Failure Answer)

namespace Stage

/-- One step of a request. -/
def turn (id : Id) : Stage → Fleet → Stage × Fleet
  | .arrived wish, f =>
    match (Instances.find id).run f with
    | (.ok i, f) => (.found wish i, f)
    | (.error failure, f) => (.answered (.error failure), f)
  | .found wish i, f =>
    let (result, control) := (wish.command i).run f.control
    (.told wish i result, { f with control })
  | .told wish i result, f =>
    let (answer, f) := (wish.finish id i result).run f
    (.answered answer, f)
  | .answered result, f => (.answered result, f)

/-- What a request that has not been answered is for. -/
def wish? : Stage → Option Wish
  | .arrived wish | .found wish _ | .told wish _ _ => some wish
  | .answered _ => none

/-- What the daemon is told in the next step. -/
def order? : Stage → Option Order
  | .found wish _ => some wish.order
  | _ => none

/-- What is known of a request when others like these have arrived and the daemon has been
told these orders. -/
def Fits (id : Id) (wishes : List Wish) (orders : List Order) : Stage → Prop
  | .arrived wish => wish ∈ wishes
  | .found wish i => wish ∈ wishes ∧ i.id = id
  | .told wish _ _ => wish ∈ wishes ∧ wish.order ∈ orders
  | .answered _ => True

section Turn

variable {id : Id} {wishes wishes' : List Wish} {orders orders' : List Order} {f : Fleet}
  {wish : Wish} {i : Instance} {result : Except Daemon.Fault Bool} {stage : Stage}

theorem Fits.mono (h : stage.Fits id wishes orders) (hwishes : wishes ⊆ wishes')
    (horders : orders ⊆ orders') : stage.Fits id wishes' orders' := by
  cases stage with
  | arrived wish => exact hwishes h
  | found wish i => exact ⟨hwishes h.1, h.2⟩
  | told wish i result => exact ⟨hwishes h.1, horders h.2⟩
  | answered result => trivial

theorem turn_arrived (wish : Wish) (h : f.HasInstance id) :
    ∃ i, i.id = id ∧ turn id (.arrived wish) f = (.found wish i, f) := by
  obtain ⟨i, hi⟩ := Option.isSome_iff_exists.mp h
  have hfind : f.store.instance? id = some i := hi
  refine ⟨i, Table.key_of_find? hi, ?_⟩
  rw [turn, Instances.find, Action.run_find, hfind]

theorem turn_arrived_of_gone (wish : Wish) (h : ¬f.HasInstance id) :
    ∃ failure, turn id (.arrived wish) f = (.answered (.error failure), f) := by
  have hfind : f.store.instance? id = none := Option.not_isSome_iff_eq_none.mp h
  refine ⟨missing "Instance" id, ?_⟩
  rw [turn, Instances.find, Action.run_find, hfind]

theorem turn_found : turn id (.found wish i) f =
    (.told wish i ((wish.command i).run f.control).1,
      { f with control := ((wish.command i).run f.control).2 }) := rfl

/-- A start leaves everything as the daemon has left it. -/
theorem turn_told_start (id : Id) (i : Instance) (result : Except Daemon.Fault Bool)
    (f : Fleet) : ∃ answer, turn id (.told .start i result) f = (.answered answer, f) := by
  rcases result with fault | _ | _ <;> exact ⟨_, rfl⟩

theorem turn_told_delete (id : Id) (i : Instance) (result : Except Daemon.Fault Bool)
    (f : Fleet) : ∃ answer, turn id (.told .delete i result) f =
    (.answered answer, { f with store := (f.store.deleteInstance id).2 }) := by
  cases result <;> exact ⟨_, rfl⟩

end Turn

end Stage

/-- The requests for an instance that there have been, in the order in which they arrived,
and what they share. -/
structure Crossing where
  stages : List Stage
  fleet : Fleet

inductive Move where
  | arrive (wish : Wish)
  /-- A request takes its next step. -/
  | turn (n : Nat)
deriving DecidableEq

/-- What somebody has come with. -/
def Move.wish? : Move → Option Wish
  | .arrive wish => some wish
  | .turn _ => none

namespace Crossing

/-- Nobody has asked for anything yet. -/
def fresh (f : Fleet) : Crossing := ⟨[], f⟩

def next (id : Id) (s : Crossing) : Move → Crossing
  | .arrive wish => { s with stages := s.stages ++ [.arrived wish] }
  | .turn n =>
    match s.stages[n]? with
    | some stage =>
      let (stage, fleet) := stage.turn id s.fleet
      ⟨s.stages.set n stage, fleet⟩
    | none => s

def after (id : Id) (s : Crossing) (moves : List Move) : Crossing := moves.foldl (next id) s

/-- All requests have been answered. -/
def Done (s : Crossing) : Prop := ∀ stage ∈ s.stages, stage.wish? = none

instance (s : Crossing) : Decidable s.Done := inferInstanceAs (Decidable (∀ _ ∈ _, _))

/-- What the daemon is told in a move, also where it takes no request to do it. -/
def order? (s : Crossing) : Move → Option Order
  | .arrive _ => none
  | .turn n => s.stages[n]?.bind Stage.order?

/-- What the daemon is told about the instance, one move after another. -/
def orders (id : Id) (s : Crossing) : List Move → List Order
  | [] => []
  | m :: rest => (s.order? m).toList ++ (s.next id m).orders id rest

variable {id : Id} {s : Crossing} {f : Fleet}

theorem next_turn {n : Nat} {stage : Stage} (h : s.stages[n]? = some stage) :
    s.next id (.turn n) =
      ⟨s.stages.set n (stage.turn id s.fleet).1, (stage.turn id s.fleet).2⟩ := by
  rw [next, h]

/-- A request that has been answered does nothing any more. -/
theorem next_answered {n : Nat} {result : Except Failure Answer}
    (h : s.stages[n]? = some (.answered result)) : s.next id (.turn n) = s := by
  obtain ⟨hlt, hget⟩ := List.getElem?_eq_some_iff.mp h
  rw [next_turn h, Stage.turn, ← hget, List.set_getElem_self]

/-! ## A request by itself -/

/-- A request that nobody comes in between leaves behind what its action does. -/
theorem alone (wish : Wish) :
    let n := s.stages.length
    s.after id [.arrive wish, .turn n, .turn n, .turn n] =
      ⟨s.stages ++ [.answered ((wish.action id).run s.fleet).1],
        ((wish.action id).run s.fleet).2⟩ := by
  -- The request stands last, and its turns touch no other one.
  have hset : ∀ a b : Stage, (s.stages ++ [a]).set s.stages.length b = s.stages ++ [b] := by
    simp
  have hget : ∀ a : Stage, (s.stages ++ [a])[s.stages.length]? = some a := by
    simp
  rw [wish.action_eq, Action.run_bind]
  simp only [after, List.foldl_cons, List.foldl_nil, next, hget, hset]
  rw [Stage.turn]
  rcases (Instances.find id).run s.fleet with ⟨failure | i, f⟩ <;> rfl

/-! ## What becomes of the instance -/

/-- What holds when these requests have arrived and the daemon has been told these orders.
The instance runs as the last of them has it.  It goes with a deletion only, which has been
to the daemon before, and it is gone when a deletion has been answered. -/
structure Traced (f : Fleet) (id : Id) (wishes : List Wish) (orders : List Order)
    (s : Crossing) : Prop where
  obliging : s.fleet.control.link.Obliging
  running_iff : s.fleet.isRunning id = true ↔
    orders.getLast? = some .start ∨ orders = [] ∧ f.isRunning id = true
  fits : ∀ stage ∈ s.stages, stage.Fits id wishes orders
  gone : ¬s.fleet.HasInstance id → .stop ∈ orders ∧ .delete ∈ wishes
  kept : s.fleet.HasInstance id → .delete ∈ wishes →
    ∃ stage ∈ s.stages, stage.wish? = some .delete

namespace Traced

variable {wishes : List Wish} {orders : List Order} {n : Nat} {wish : Wish}
  {i : Instance} {result : Except Daemon.Fault Bool}

theorem nobody (hhas : f.HasInstance id) (hlink : f.control.link.Obliging) :
    Traced f id [] [] (Crossing.fresh f) where
  obliging := hlink
  running_iff := by
    rw [Crossing.fresh, List.getLast?_nil]
    exact ⟨fun hrunning => .inr ⟨rfl, hrunning⟩, fun h => h.elim nofun And.right⟩
  fits := fun _ hstage => absurd hstage List.not_mem_nil
  gone := fun hgone => absurd hhas hgone
  kept := fun _ hdelete => absurd hdelete List.not_mem_nil

theorem arrive (h : Traced f id wishes orders s) (wish : Wish) :
    Traced f id (wishes ++ [wish]) orders (s.next id (.arrive wish)) where
  obliging := h.obliging
  running_iff := h.running_iff
  fits := by
    intro stage hstage
    rcases List.mem_append.mp hstage with hold | hnew
    · exact (h.fits stage hold).mono (List.subset_append_left _ _) (List.Subset.refl _)
    · rw [List.mem_singleton.mp hnew]
      exact List.mem_append_right _ List.mem_cons_self
  gone hgone := (h.gone hgone).imp_right (List.mem_append_left _)
  kept hhas hdelete := by
    rcases List.mem_append.mp hdelete with hold | hnew
    · obtain ⟨stage, hstage, hwish⟩ := h.kept hhas hold
      exact ⟨stage, List.mem_append_left _ hstage, hwish⟩
    · rw [List.mem_singleton] at hnew
      exact ⟨.arrived wish, List.mem_append_right _ List.mem_cons_self, congrArg some hnew.symm⟩

theorem forall_mem_set {p : Stage → Prop} {stages : List Stage} {stage' : Stage}
    (h : ∀ stage ∈ stages, p stage) (hp : p stage') : ∀ stage ∈ stages.set n stage', p stage := by
  intro stage hstage
  rcases List.mem_or_eq_of_mem_set hstage with hold | rfl
  · exact h stage hold
  · exact hp

/-- A request that goes on and still has the same to do. -/
theorem exists_wish_set {stages : List Stage} {stage stage' : Stage}
    (hn : stages[n]? = some stage)
    (hsame : stage.wish? = some .delete → stage'.wish? = some .delete)
    (h : ∃ stage ∈ stages, stage.wish? = some .delete) :
    ∃ stage ∈ stages.set n stage', stage.wish? = some .delete := by
  obtain ⟨other, hother, hwish⟩ := h
  obtain ⟨m, hm⟩ := List.mem_iff_getElem?.mp hother
  have hlt : n < stages.length := (List.getElem?_eq_some_iff.mp hn).1
  by_cases hmn : m = n
  · subst hmn
    cases hn.symm.trans hm
    exact ⟨stage', List.mem_set hlt _, hsame hwish⟩
  · refine ⟨other, List.mem_of_getElem? (i := m) ?_, hwish⟩
    rw [List.getElem?_set_ne (Ne.symm hmn), hm]

/-- A look-up changes nothing but the request itself. -/
theorem look (h : Traced f id wishes orders s) (hn : s.stages[n]? = some (.arrived wish)) :
    Traced f id wishes orders (s.next id (.turn n)) := by
  have hfits : wish ∈ wishes := h.fits _ (List.mem_of_getElem? hn)
  rw [next_turn hn]
  by_cases hhas : s.fleet.HasInstance id
  · obtain ⟨i, hid, hturn⟩ := Stage.turn_arrived wish hhas
    rw [hturn]
    exact { h with
      fits := forall_mem_set h.fits ⟨hfits, hid⟩
      kept := fun _ hdelete => exists_wish_set hn (fun hwish => hwish) (h.kept hhas hdelete) }
  · obtain ⟨failure, hturn⟩ := Stage.turn_arrived_of_gone wish hhas
    rw [hturn]
    exact { h with
      fits := forall_mem_set h.fits trivial
      kept := fun hhas' => absurd hhas' hhas }

theorem tell (h : Traced f id wishes orders s) (hn : s.stages[n]? = some (.found wish i)) :
    Traced f id wishes (orders ++ [wish.order]) (s.next id (.turn n)) := by
  obtain ⟨hfits, hid⟩ : wish ∈ wishes ∧ i.id = id := h.fits _ (List.mem_of_getElem? hn)
  obtain ⟨done, hdone, hlink⟩ := (wish.command i).run_of_obliging h.obliging
  have hrunning := Command.isRunning_of_run (Prod.ext hdone rfl) id
  rw [next_turn hn, Stage.turn_found]
  exact {
    obliging := hlink
    -- The command has succeeded, so the instance is as the order wants it.
    running_iff := by
      rw [Fleet.isRunning, hrunning, if_pos (wish.command_id.trans hid).symm, wish.command_order,
        List.getLast?_concat]
      cases wish <;> simp [Wish.order]
    fits := forall_mem_set
      (fun stage hstage =>
        (h.fits stage hstage).mono (List.Subset.refl _) (List.subset_append_left _ _))
      ⟨hfits, List.mem_append_right _ List.mem_cons_self⟩
    gone := fun hgone => (h.gone hgone).imp_left (List.mem_append_left _)
    kept := fun hhas hdelete =>
      exists_wish_set hn (fun hwish => hwish) (h.kept hhas hdelete) }

/-- A deletion takes the instance away, and it has been to the daemon. -/
theorem finish (h : Traced f id wishes orders s)
    (hn : s.stages[n]? = some (.told wish i result)) :
    Traced f id wishes orders (s.next id (.turn n)) := by
  have hfits : wish ∈ wishes ∧ wish.order ∈ orders := h.fits _ (List.mem_of_getElem? hn)
  rw [next_turn hn]
  cases wish with
  | start =>
    obtain ⟨answer, hturn⟩ := Stage.turn_told_start id i result s.fleet
    rw [hturn]
    exact { h with
      fits := forall_mem_set h.fits trivial
      kept := fun hhas hdelete => exists_wish_set hn nofun (h.kept hhas hdelete) }
  | delete =>
    obtain ⟨answer, hturn⟩ := Stage.turn_told_delete id i result s.fleet
    rw [hturn]
    exact { h with
      fits := forall_mem_set h.fits trivial
      gone := fun _ => hfits.symm
      kept := fun hhas => absurd rfl (Fleet.hasInstance_delete.mp hhas).1 }

/-- The step lemma. -/
theorem next (h : Traced f id wishes orders s) (m : Move) :
    Traced f id (wishes ++ m.wish?.toList) (orders ++ (s.order? m).toList) (s.next id m) := by
  cases m with
  | arrive wish => simpa [order?, Move.wish?] using h.arrive wish
  | turn n =>
    rw [Move.wish?, Option.toList_none, List.append_nil, order?]
    cases hn : s.stages[n]? with
    | none => simpa [Crossing.next, hn] using h
    | some stage =>
      cases stage with
      | arrived wish => simpa [Stage.order?] using h.look hn
      | found wish i => exact h.tell hn
      | told wish i result => simpa [Stage.order?] using h.finish hn
      | answered result => simpa [Stage.order?, next_answered hn] using h

/-- The run lemma. -/
theorem after (h : Traced f id wishes orders s) (moves : List Move) :
    Traced f id (wishes ++ moves.filterMap Move.wish?) (orders ++ s.orders id moves)
      (s.after id moves) := by
  induction moves generalizing wishes orders s with
  | nil =>
    rw [List.filterMap_nil, List.append_nil, Crossing.orders, List.append_nil]
    exact h
  | cons m rest ih =>
    have hwishes : (m :: rest).filterMap Move.wish? =
        m.wish?.toList ++ rest.filterMap Move.wish? := by
      cases m <;> rfl
    rw [hwishes, Crossing.orders, ← List.append_assoc, ← List.append_assoc]
    exact ih (h.next m)

theorem orphan_iff (h : Traced f id wishes orders s) :
    s.fleet.Orphan id ↔ ¬s.fleet.HasInstance id ∧ orders.getLast? = some .start := by
  rw [Fleet.Orphan, and_comm, h.running_iff]
  refine and_congr_right fun hgone => or_iff_left ?_
  rintro ⟨rfl, -⟩
  exact absurd (h.gone hgone).1 List.not_mem_nil

/-- When all have been answered, the instance is gone if anybody wanted it deleted. -/
theorem hasInstance_iff (h : Traced f id wishes orders s) (hdone : s.Done) :
    s.fleet.HasInstance id ↔ .delete ∉ wishes := by
  constructor
  · intro hhas hdelete
    obtain ⟨stage, hstage, hwish⟩ := h.kept hhas hdelete
    rw [hdone stage hstage] at hwish
    cases hwish
  · intro hdelete
    by_contra hgone
    exact hdelete (h.gone hgone).2

end Traced

theorem delete_mem_wishes {moves : List Move} :
    .delete ∈ moves.filterMap Move.wish? ↔ .arrive .delete ∈ moves := by
  rw [List.mem_filterMap]
  constructor
  · rintro ⟨_ | _, hm, hwish⟩
    · cases hwish
      exact hm
    · cases hwish
  · exact fun h => ⟨_, h, rfl⟩

/-- Among requests to start and to delete an instance, with a daemon that acknowledges
whatever it is sent, the instance keeps running without being stored exactly when somebody
wants it deleted and the daemon is told last to start it. -/
theorem orphan_iff_start_last {moves : List Move} (hhas : f.HasInstance id)
    (hlink : f.control.link.Obliging) (hdone : ((fresh f).after id moves).Done) :
    ((fresh f).after id moves).fleet.Orphan id ↔
      .arrive .delete ∈ moves ∧ ((fresh f).orders id moves).getLast? = some .start := by
  have htraced := (Traced.nobody hhas hlink).after moves
  rw [List.nil_append, List.nil_append] at htraced
  rw [htraced.orphan_iff, htraced.hasInstance_iff hdone, not_not, delete_mem_wishes]

/-! ## A deletion that is overtaken -/

/-- A start finds the instance, then the deletion takes all its steps, and only then the
start comes to the daemon. -/
def overtaking : List Move :=
  [.arrive .start, .arrive .delete, .turn 0, .turn 1, .turn 1, .turn 1, .turn 0, .turn 0]

def radioFleet : Fleet := (State.withRadio (State.first (.answered 200 "")).fleet.control).fleet

theorem obliging_radioFleet : radioFleet.control.link.Obliging := by
  intro outcome hmem
  rw [List.mem_singleton.mp hmem]
  rfl

theorem done_overtaking : ((fresh radioFleet).after Table.firstId overtaking).Done := by
  decide

/-- The radio is started for good, since the daemon hears of the deletion first. -/
theorem radio_orphan_of_overtaking :
    ((fresh radioFleet).after Table.firstId overtaking).fleet.Orphan Table.firstId :=
  (orphan_iff_start_last (by rfl) obliging_radioFleet done_overtaking).mpr ⟨by decide, by rfl⟩

/-- Requests to start and to delete an instance may leave its identifier behind. -/
theorem not_never_orphan :
    ¬∀ (d : Setup) (s : State) (id : Id) (moves : List Move), State.Reachable d s →
      s.fleet.HasInstance id → s.fleet.control.link.Obliging →
      ((fresh s.fleet).after id moves).Done →
      ¬((fresh s.fleet).after id moves).fleet.Orphan id := by
  intro h
  have hreach : State.Reachable .plain
      (State.withRadio (State.first (.answered 200 "")).fleet.control) := by
    rw [← State.next_createRadio]
    exact (State.reachable_first _).next _
  refine h .plain _ Table.firstId overtaking hreach (by rfl) obliging_radioFleet
    done_overtaking ⟨by rfl, ?_⟩
  rw [Fleet.HasInstance]
  decide

end Crossing

end Service
end BotFleet
