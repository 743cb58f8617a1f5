import BotFleet.Proofs.Daemon.Control

/-
The record of running instances against the daemon's side of the story.

The ledger of a run is what the daemon has acknowledged: the requests that arrived,
with their paths and bodies, as far as they were answered with a success.  It says
nothing of what was concluded from the answers.  A command that sends nothing, or whose
request comes to nothing, leaves both the ledger and the record alone, and one that is
acknowledged adds one request to the ledger and turns the record of one instance over.
So an instance is on the record exactly when the last request for it in the ledger is
one to start it, and these requests take turns.
-/

namespace BotFleet
namespace Daemon

open Json (Message)

/-- What a request asks the daemon to do with an instance. -/
inductive Order where
  | start
  | stop
deriving DecidableEq, Repr

namespace Order

def other : Order → Order
  | .start => .stop
  | .stop => .start

def path : Order → String
  | .start => "/instance/start"
  | .stop => "/instance/stop"

/-- The first order is the given one, and from there on they take turns. -/
def Alternate : Order → List Order → Prop
  | _, [] => True
  | o, x :: rest => x = o ∧ Alternate o.other rest

end Order

/-! ## Requests -/

namespace Exchange

/-- The order that the address of a request gives. -/
def order? (e : Exchange) : Option Order :=
  [Order.start, Order.stop].find? fun o => o.path.toList <:+ e.url.toList

def isFor (id : Id) (e : Exchange) : Bool :=
  match e.body.field? "id" with
  | some (.int n) => n == id.val
  | _ => false

theorem order?_of_path (base : String) (o : Order) (body : Json) :
    order? ⟨base ++ o.path, body⟩ = some o := by
  have hsuffix : o.path.toList <:+ (base ++ o.path).toList := by
    rw [String.toList_append]
    exact List.suffix_append _ _
  cases o with
  | start => exact List.find?_cons_of_pos (decide_eq_true hsuffix)
  | stop =>
    -- The two paths end in different letters, so no address ends in both.
    have hother : ¬Order.start.path.toList <:+ (base ++ Order.stop.path).toList := by
      rintro ⟨front, h⟩
      have hlast := congrArg List.getLast? h
      simp [Order.path] at hlast
    rw [order?, List.find?_cons_of_neg (by simpa using hother)]
    exact List.find?_cons_of_pos (decide_eq_true hsuffix)

end Exchange

/-- What the requests for an instance have told the daemon to do with it. -/
def told (id : Id) (exchanges : List Exchange) : List Order :=
  (exchanges.filter (·.isFor id)).filterMap Exchange.order?

theorem told_append (id : Id) (a b : List Exchange) :
    told id (a ++ b) = told id a ++ told id b := by
  simp [told]

theorem told_singleton {base : String} {o : Order} {body : Json} {id target : Id}
    (hbody : body.field? "id" = some (.int target.val)) :
    told id [⟨base ++ o.path, body⟩] = if id = target then [o] else [] := by
  have hfor : Exchange.isFor id ⟨base ++ o.path, body⟩ = (target.val == id.val) := by
    simp only [Exchange.isFor, hbody]
  by_cases h : id = target
  · rw [if_pos h, told, List.filter_cons, hfor, h, beq_self_eq_true, if_pos rfl]
    simp [Exchange.order?_of_path]
  · have hval : (target.val == id.val) = false :=
      beq_eq_false_iff_ne.mpr fun he => h (Ranged.ext he).symm
    rw [if_neg h, told, List.filter_cons, hfor, hval]
    rfl

def Outcome.isAcknowledged : Outcome → Bool
  | .answered status _ => isSuccess status
  | _ => false

namespace Link

variable {l l' : Link} {path : String} {body : Json}

theorem post_eq_ok (h : l.post path body = (.ok (), l')) :
    l.next.isAcknowledged = true ∧ l'.exchanges = l.exchanges ++ [⟨l.base ++ path, body⟩] := by
  rw [post, Prod.mk.injEq] at h
  obtain ⟨hresult, rfl⟩ := h
  unfold record
  cases hnext : l.next with
  | answered status text =>
    rw [hnext] at hresult
    by_cases hsuccess : isSuccess status = true
    · exact ⟨hsuccess, rfl⟩
    · simp [hsuccess] at hresult
  | dropped => simp [hnext] at hresult
  | unsent => simp [hnext] at hresult

theorem post_eq_error {fault : Fault} (h : l.post path body = (.error fault, l')) :
    l.next.isAcknowledged = false := by
  rw [post, Prod.mk.injEq] at h
  obtain ⟨hresult, -⟩ := h
  cases hnext : l.next with
  | answered status text =>
    rw [hnext] at hresult
    by_cases hsuccess : isSuccess status = true
    · simp [hsuccess] at hresult
    · exact Bool.eq_false_iff.mpr hsuccess
  | dropped => rfl
  | unsent => rfl

end Link

/-! ## Commands -/

/-- A command for an instance. -/
inductive Command where
  | start (i : Instance)
  | stop (id : Id)

namespace Command

def id : Command → Id
  | .start i => i.id
  | .stop id => id

def order : Command → Order
  | .start _ => .start
  | .stop _ => .stop

def request : Command → Json
  | .start i => Message.toJson (LoadRequest.ofInstance i initialVolume)
  | .stop id => Message.toJson (StopRequest.mk id)

def run : Command → Control → Except Fault Bool × Control
  | .start i, c => c.start i
  | .stop id, c => c.stop id

/-- The instance is already as the command wants it. -/
def Idle (command : Command) (c : Control) : Prop :=
  c.isRunning command.id = (command.order == .start)

theorem request_id (command : Command) :
    command.request.field? "id" = some (.int command.id.val) := by
  cases command <;> rfl

variable {command : Command} {c c' : Control} {fault : Fault}

theorem run_eq_ok_true (h : command.run c = (.ok true, c')) :
    c.isRunning command.id = (command.order == .stop) ∧
      c.link.post command.order.path command.request = (.ok (), c'.link) := by
  cases command with
  | start i =>
    obtain ⟨hrun, link, hpost, rfl⟩ := Control.start_eq_ok_true h
    exact ⟨hrun, hpost⟩
  | stop id =>
    obtain ⟨hrun, link, hpost, rfl⟩ := Control.stop_eq_ok_true h
    exact ⟨hrun, hpost⟩

theorem run_eq_ok_false (h : command.run c = (.ok false, c')) : command.Idle c ∧ c' = c := by
  cases command with
  | start i => exact Control.start_eq_ok_false h
  | stop id => exact Control.stop_eq_ok_false h

theorem run_eq_error (h : command.run c = (.error fault, c')) :
    c.link.post command.order.path command.request = (.error fault, c'.link) ∧
      c'.running = c.running := by
  cases command with
  | start i =>
    obtain ⟨-, link, hpost, rfl⟩ := Control.start_eq_error h
    exact ⟨hpost, rfl⟩
  | stop id =>
    obtain ⟨-, link, hpost, rfl⟩ := Control.stop_eq_error h
    exact ⟨hpost, rfl⟩

theorem run_of_idle (h : command.Idle c) : command.run c = (.ok false, c) := by
  cases command with
  | start i => exact Control.start_of_isRunning h
  | stop id => exact Control.stop_of_not_isRunning h

/-- A command that has something to do sends one request, and its success is that of
the request. -/
theorem run_of_not_idle (h : ¬command.Idle c) :
    (command.run c).2.link = c.link.record command.order.path command.request ∧
      ((command.run c).1 = .ok true ↔ c.link.next.isAcknowledged = true) := by
  rcases hrun : command.run c with ⟨fault | _ | _, c'⟩
  · obtain ⟨hpost, -⟩ := run_eq_error hrun
    have hrefused := Link.post_eq_error hpost
    exact ⟨(congrArg Prod.snd hpost).symm, by simp [hrefused]⟩
  · exact absurd (run_eq_ok_false hrun).1 h
  · obtain ⟨-, hpost⟩ := run_eq_ok_true hrun
    have hsuccess := (Link.post_eq_ok hpost).1
    exact ⟨(congrArg Prod.snd hpost).symm, by simp [hsuccess]⟩

/-- A command that succeeds leaves its instance as it wants it, and all others as they
were. -/
theorem isRunning_of_run {done : Bool} (h : command.run c = (.ok done, c')) (id : Id) :
    c'.isRunning id = if id = command.id then command.order == .start else c.isRunning id := by
  cases command with
  | start i =>
    rw [Control.isRunning_of_start h]
    by_cases hid : id = i.id
    · simp [Command.id, order, hid]
    · simp [Command.id, hid]
  | stop target =>
    rw [Control.isRunning_of_stop h]
    by_cases hid : id = target
    · simp [Command.id, order, hid]
    · simp [Command.id, hid]

/-- Whatever comes of a command, it concerns one instance. -/
theorem isRunning_run_of_ne {id : Id} (h : id ≠ command.id) :
    (command.run c).2.isRunning id = c.isRunning id := by
  rcases hrun : command.run c with ⟨fault | done, c'⟩
  · rw [Control.isRunning, Control.isRunning, (run_eq_error hrun).2]
  · rw [isRunning_of_run hrun, if_neg h]

end Command

/-! ## Steps -/

/-- What can happen to a control. -/
inductive Step where
  | command (command : Command)
  /-- What becomes of requests from now on. -/
  | replies (pending : List Outcome) (otherwise : Outcome)

namespace Control

variable {c : Control}

def next (c : Control) : Step → Control
  | .command command => (command.run c).2
  | .replies pending otherwise => { c with link := { c.link with pending, otherwise } }

def after (c : Control) (steps : List Step) : Control := steps.foldl next c

/-- The requests that arrive in a step and are answered with a success. -/
def acknowledged (c : Control) (step : Step) : List Exchange :=
  if c.link.next.isAcknowledged then (c.next step).link.exchanges.drop c.link.exchanges.length
  else []

def ledger : Control → List Step → List Exchange
  | _, [] => []
  | c, step :: steps => c.acknowledged step ++ (c.next step).ledger steps

/-- The order that is due for an instance. -/
def due (c : Control) (id : Id) : Order := if c.isRunning id then .stop else .start

theorem after_append (c : Control) (a b : List Step) : c.after (a ++ b) = (c.after a).after b :=
  List.foldl_append

theorem acknowledged_of_link {step : Step} (h : (c.next step).link.exchanges = c.link.exchanges) :
    c.acknowledged step = [] := by
  simp [acknowledged, h]

/-- A step either leaves the ledger and the record of an instance alone, or adds the
order that is due for it to the ledger and obeys it. -/
theorem acknowledged_cases (c : Control) (step : Step) (id : Id) :
    (told id (c.acknowledged step) = [] ∧ (c.next step).isRunning id = c.isRunning id) ∨
      told id (c.acknowledged step) = [c.due id] ∧
        (c.next step).isRunning id = (c.due id == .start) := by
  cases step with
  | replies pending otherwise =>
    rw [acknowledged_of_link rfl]
    exact .inl ⟨rfl, rfl⟩
  | command command =>
    rcases hrun : command.run c with ⟨fault | _ | _, c'⟩
    · obtain ⟨hpost, hrunning⟩ := Command.run_eq_error hrun
      refine .inl ⟨?_, ?_⟩
      · rw [acknowledged, Link.post_eq_error hpost]
        rfl
      · rw [next, hrun, isRunning, hrunning]
        rfl
    · obtain ⟨-, rfl⟩ := Command.run_eq_ok_false hrun
      have hnext : c'.next (.command command) = c' := by rw [next, hrun]
      rw [acknowledged_of_link (by rw [hnext]), hnext]
      exact .inl ⟨rfl, rfl⟩
    · obtain ⟨hstate, hpost⟩ := Command.run_eq_ok_true hrun
      obtain ⟨hsuccess, hexchanges⟩ := Link.post_eq_ok hpost
      have hnext : c.next (.command command) = c' := by rw [next, hrun]
      have hsent : c.acknowledged (.command command) =
          [⟨c.link.base ++ command.order.path, command.request⟩] := by
        rw [acknowledged, hsuccess, hnext, hexchanges, if_pos rfl, List.drop_left]
      rw [hsent, hnext, told_singleton command.request_id, Command.isRunning_of_run hrun]
      by_cases hid : id = command.id
      · have hdue : c.due id = command.order := by
          rw [due, hid, hstate]
          cases command.order <;> rfl
        rw [if_pos hid, if_pos hid, hdue]
        exact .inr ⟨rfl, rfl⟩
      · rw [if_neg hid, if_neg hid]
        exact .inl ⟨rfl, rfl⟩

/-! ## Runs -/

theorem due_eq_other {c' : Control} {id : Id} (h : c'.isRunning id = (c.due id == .start)) :
    c'.due id = (c.due id).other := by
  rw [due, h]
  cases c.due id <;> rfl

/-- The acknowledged requests for an instance take turns, from the one that is due at
first. -/
theorem alternate_ledger (c : Control) (steps : List Step) (id : Id) :
    Order.Alternate (c.due id) (told id (c.ledger steps)) := by
  induction steps generalizing c with
  | nil => exact trivial
  | cons step steps ih =>
    rw [ledger, told_append]
    rcases acknowledged_cases c step id with ⟨htold, hrunning⟩ | ⟨htold, hrunning⟩
    · have hdue : (c.next step).due id = c.due id := by rw [due, due, hrunning]
      rw [htold, List.nil_append, ← hdue]
      exact ih _
    · rw [htold, List.singleton_append]
      refine ⟨rfl, ?_⟩
      rw [← due_eq_other hrunning]
      exact ih _

/-- The last acknowledged request for an instance decides whether it is on the record.
Without one it stays as it was. -/
theorem isRunning_after (c : Control) (steps : List Step) (id : Id) :
    (c.after steps).isRunning id =
      ((told id (c.ledger steps)).getLast?.map (· == .start)).getD (c.isRunning id) := by
  induction steps generalizing c with
  | nil => rfl
  | cons step steps ih =>
    rw [after, List.foldl_cons]
    show ((c.next step).after steps).isRunning id = _
    rw [ih, ledger, told_append]
    rcases acknowledged_cases c step id with ⟨htold, hrunning⟩ | ⟨htold, hrunning⟩
    · rw [htold, List.nil_append, hrunning]
    · rw [htold, hrunning, List.singleton_append, List.getLast?_cons]
      cases (told id ((c.next step).ledger steps)).getLast? <;> rfl

/-- After the steps the record agrees with what the daemon has acknowledged, and so it
does whatever command comes next. -/
structure Agrees (c : Control) (steps : List Step) : Prop where
  running_iff : ∀ id, (c.after steps).isRunning id = true ↔
    (told id (c.ledger steps)).getLast? = some .start
  alternate : ∀ id, Order.Alternate .start (told id (c.ledger steps))
  idle : ∀ command : Command, command.Idle (c.after steps) →
    command.run (c.after steps) = (.ok false, c.after steps)
  sent : ∀ command : Command, ¬command.Idle (c.after steps) →
    (command.run (c.after steps)).2.link =
        (c.after steps).link.record command.order.path command.request ∧
      ((command.run (c.after steps)).1 = .ok true ↔
        (c.after steps).link.next.isAcknowledged = true)
  failed : ∀ (command : Command) (fault : Fault) (c' : Control),
    command.run (c.after steps) = (.error fault, c') → c'.running = (c.after steps).running
  others : ∀ (command : Command) (id : Id), id ≠ command.id →
    (command.run (c.after steps)).2.isRunning id = (c.after steps).isRunning id

/-- Whatever is commanded and whatever the daemon answers, the record agrees with the
ledger, if nothing was on it at first. -/
theorem agrees_of_nothing_running (link : Link) (steps : List Step) :
    Agrees ⟨[], link⟩ steps where
  running_iff id := by
    have hnone : Control.isRunning ⟨[], link⟩ id = false := rfl
    rw [isRunning_after, hnone]
    cases (told id (ledger ⟨[], link⟩ steps)).getLast? with
    | none => simp
    | some o => simp
  alternate id := alternate_ledger ⟨[], link⟩ steps id
  idle _ h := Command.run_of_idle h
  sent _ h := Command.run_of_not_idle h
  failed _ _ _ h := (Command.run_eq_error h).2
  others _ _ h := Command.isRunning_run_of_ne h

end Control
end Daemon
end BotFleet
