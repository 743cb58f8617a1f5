import BotFleet.Proofs.Daemon.Ledger
import BotFleet.Proofs.Store.Table
import BotFleet.Store.Instances

/-
Starting the instances that start together with the service.

An instance that counts as running already is passed over.  Each of the others costs
one request, whatever became of the requests before it, so the n-th of them meets the
n-th reply of the daemon.  No two instances share an identifier.  So which of them are
passed over can be read off the record as it is at first, although the record grows
while they are started.  The theorem that puts this together is
`autostart_tries_each_once`.
-/

namespace BotFleet
namespace Daemon

open Json (Message)

def Outcome.arrives : Outcome → Bool
  | .unsent _ => false
  | _ => true

namespace Link

variable {l : Link} {path : String} {body : Json}

/-- What becomes of the next `n` requests. -/
def replies (l : Link) (n : Nat) : List Outcome :=
  (List.range n).map fun k => l.pending.getD k l.otherwise

theorem length_replies (l : Link) (n : Nat) : (l.replies n).length = n := by
  rw [replies, List.length_map, List.length_range]

theorem record_eq (l : Link) (path : String) (body : Json) :
    l.record path body = { l with
      pending := l.pending.tail
      exchanges := l.exchanges ++ if l.next.arrives then [⟨l.base ++ path, body⟩] else [] } := by
  rw [record]
  split
  · rename_i hnext
    simp [hnext, Outcome.arrives]
  · rename_i hnext
    have harrives : l.next.arrives = true := by
      cases hcase : l.next with
      | unsent detail => exact absurd hcase (hnext detail)
      | answered status text => rfl
      | dropped => rfl
    rw [if_pos harrives]

theorem replies_succ (l : Link) (path : String) (body : Json) (n : Nat) :
    l.replies (n + 1) = l.next :: (l.record path body).replies n := by
  have hhead : l.pending.getD 0 l.otherwise = l.next := by
    rw [next]
    cases l.pending <;> rfl
  have htail : ∀ k, l.pending.tail.getD k l.otherwise = l.pending.getD (k + 1) l.otherwise := by
    intro k
    cases l.pending <;> rfl
  rw [replies, List.range_succ_eq_map, List.map_cons, hhead, List.map_map, replies, record_eq]
  simp only [htail]
  rfl

end Link

namespace Control

variable {c : Control} {i : Instance} {tried instances : List Instance}

/-! ## One instance -/

/-- The control after one request to start an instance. -/
def asked (i : Instance) (c : Control) : Control where
  running := if c.link.next.isAcknowledged then insert i.id c.running else c.running
  link := c.link.record "/instance/start" (Message.toJson (LoadRequest.ofInstance i initialVolume))

theorem mem_running_asked {id : Id} :
    id ∈ (c.asked i).running ↔
      id ∈ c.running ∨ c.link.next.isAcknowledged = true ∧ i.id = id := by
  rw [asked]
  by_cases hack : c.link.next.isAcknowledged = true
  · rw [if_pos hack, mem_insert, or_comm]
    simp [hack, eq_comm]
  · simp [hack]

theorem isRunning_asked_of_ne {id : Id} (h : id ≠ i.id) :
    (c.asked i).isRunning id = c.isRunning id := by
  rw [Bool.eq_iff_iff, isRunning_iff, isRunning_iff, mem_running_asked, or_iff_left]
  intro hid
  exact h hid.2.symm

theorem autostart_of_isRunning (h : c.isRunning i.id = true) (rest : List Instance) :
    autostart (i :: rest) c = autostart rest c := by
  rw [autostart, start_of_isRunning h]

/-- An instance that is not running is asked for, and counted if that is acknowledged. -/
theorem autostart_of_not_isRunning (h : c.isRunning i.id = false) (rest : List Instance) :
    (autostart (i :: rest) c).control = (autostart rest (c.asked i)).control ∧
      (autostart (i :: rest) c).started =
        (autostart rest (c.asked i)).started + if c.link.next.isAcknowledged then 1 else 0 := by
  rw [autostart]
  rcases hstart : c.start i with ⟨fault | _ | _, c'⟩
  · obtain ⟨-, link, hpost, rfl⟩ := start_eq_error hstart
    have hack := Link.post_eq_error hpost
    have hasked : c.asked i = { c with link } := by
      rw [asked, hack, ← show _ = link from congrArg Prod.snd hpost]
      rfl
    rw [hasked, hack]
    exact ⟨rfl, rfl⟩
  · obtain ⟨hrun, -⟩ := start_eq_ok_false hstart
    rw [h] at hrun
    exact absurd hrun Bool.false_ne_true
  · obtain ⟨-, link, hpost, rfl⟩ := start_eq_ok_true hstart
    have hack := (Link.post_eq_ok hpost).1
    have hasked : c.asked i = ⟨insert i.id c.running, link⟩ := by
      rw [asked, hack, ← show _ = link from congrArg Prod.snd hpost]
      rfl
    rw [hasked, hack]
    exact ⟨rfl, rfl⟩

/-! ## One after another -/

/-- Instances that are asked for in turn, each with the reply that it meets. -/
def met (tried : List Instance) (c : Control) : List (Instance × Outcome) :=
  tried.zip (c.link.replies tried.length)

theorem met_cons (i : Instance) (tried : List Instance) (c : Control) :
    c.met (i :: tried) = (i, c.link.next) :: (c.asked i).met tried := by
  rw [met, List.length_cons, Link.replies_succ c.link "/instance/start"
    (Message.toJson (LoadRequest.ofInstance i initialVolume)), List.zip_cons_cons]
  rfl

theorem map_fst_met (tried : List Instance) (c : Control) : (c.met tried).map Prod.fst = tried :=
  List.map_fst_zip (Nat.le_of_eq (c.link.length_replies tried.length).symm)

/-- Each of some instances has been asked for once, in their order, and none besides.
The instances whose request was acknowledged are on the record and are counted. -/
structure TriesEach (tried : List Instance) (c : Control) (result : Autostart) : Prop where
  each : (c.met tried).map Prod.fst = tried
  link : result.control.link = { c.link with
    pending := c.link.pending.drop tried.length
    exchanges := c.link.exchanges ++ ((c.met tried).filter (·.2.arrives)).map fun p =>
      ⟨c.link.base ++ "/instance/start",
        Message.toJson (LoadRequest.ofInstance p.1 initialVolume)⟩ }
  running_iff : ∀ id, id ∈ result.control.running ↔
    id ∈ c.running ∨ ∃ p ∈ c.met tried, p.2.isAcknowledged = true ∧ p.1.id = id
  started : result.started = (c.met tried).countP (·.2.isAcknowledged)

theorem TriesEach.nil : TriesEach [] c ⟨c, 0, []⟩ where
  each := map_fst_met [] c
  link := by simp [met]
  running_iff id := by simp [met]
  started := rfl

theorem TriesEach.cons {rest : List Instance} (h : c.isRunning i.id = false)
    (hrest : TriesEach tried (c.asked i) (autostart rest (c.asked i))) :
    TriesEach (i :: tried) c (autostart (i :: rest) c) := by
  obtain ⟨hcontrol, hstarted⟩ := autostart_of_not_isRunning h rest
  refine ⟨map_fst_met _ c, ?_, ?_, ?_⟩
  · have hlink : (c.asked i).link = _ := Link.record_eq c.link "/instance/start" _
    rw [hcontrol, hrest.link, met_cons, List.filter_cons, hlink]
    by_cases harrives : c.link.next.arrives = true
    · simp [harrives]
    · simp [harrives]
  · intro id
    rw [hcontrol, hrest.running_iff, mem_running_asked, met_cons]
    simp only [List.mem_cons, exists_eq_or_imp, or_assoc]
  · rw [hstarted, hrest.started, met_cons, List.countP_cons]

/-- Who is not running at first is who is tried, since no start puts another on the
record. -/
theorem triesEach_filter (hnodup : (instances.map Instance.id).Nodup) (c : Control) :
    TriesEach (instances.filter fun i => !c.isRunning i.id) c (autostart instances c) := by
  induction instances generalizing c with
  | nil => exact .nil
  | cons i rest ih =>
    obtain ⟨hfresh, hnodup⟩ := List.nodup_cons.mp hnodup
    cases hrun : c.isRunning i.id with
    | true =>
      rw [List.filter_cons_of_neg (by simp [hrun]), autostart_of_isRunning hrun]
      exact ih hnodup c
    | false =>
      have hsame : rest.filter (fun j => !c.isRunning j.id) =
          rest.filter fun j => !(c.asked i).isRunning j.id := by
        refine List.filter_congr fun j hj => ?_
        have hne : j.id ≠ i.id := fun hid => hfresh (hid ▸ List.mem_map_of_mem hj)
        rw [isRunning_asked_of_ne hne]
      rw [List.filter_cons_of_pos (by simp [hrun]), hsame]
      exact .cons hrun (ih hnodup _)

/-- Whatever is running already and whatever the daemon replies, the service asks once
for each instance that is to start with it and is not running, by increasing
identifier.  No failure keeps a later one from being tried, no request is sent for any
other instance, and exactly the acknowledged ones come on the record and are counted. -/
theorem autostart_tries_each_once {s : Store} (hs : Table.Sorted s.instances) (c : Control) :
    ∃ tried : List Instance,
      (∀ i, i ∈ tried ↔ i ∈ s.instances ∧ i.settings.autostart = true ∧ i.id ∉ c.running) ∧
      Table.Sorted tried ∧ TriesEach tried c (autostart s.autostartInstances c) := by
  have hflagged : Table.Sorted s.autostartInstances := List.Pairwise.filter _ hs
  refine ⟨s.autostartInstances.filter fun i => !c.isRunning i.id, ?_, ?_, ?_⟩
  · intro i
    rw [List.mem_filter, Store.autostartInstances, List.mem_filter, ← isRunning_iff]
    simp [and_assoc]
  · exact List.Pairwise.filter _ hflagged
  · exact triesEach_filter (Table.nodup_keys hflagged) c

/-- Four instances, of which all but the second are to start with the service. -/
def quartet : Store :=
  let settings (autostart : Bool) : Settings :=
    ⟨"jukebox", "localhost", ⟨9991, by decide⟩, none, none, none, autostart⟩
  { Store.fresh with instances :=
    [⟨Table.firstId, settings true⟩, ⟨⟨5, by decide⟩, settings false⟩,
      ⟨⟨6, by decide⟩, settings true⟩, ⟨⟨7, by decide⟩, settings true⟩] }

/-- The daemon will not start the first instance, the third one is running already, and
the fourth is started all the same. -/
theorem quartet_tried_each_once :
    let c : Control :=
      ⟨[⟨6, by decide⟩], ⟨"http://localhost", [.answered 503 ""], .answered 200 "", []⟩⟩
    let result := autostart quartet.autostartInstances c
    Table.Sorted quartet.instances ∧
    result.control.link.exchanges.map (·.body.field? "id") = [some (.int 1), some (.int 7)] ∧
    result.control.running = [⟨6, by decide⟩, ⟨7, by decide⟩] ∧
    result.started = 1 ∧
    ∃ tried : List Instance,
      (∀ i, i ∈ tried ↔
        i ∈ quartet.instances ∧ i.settings.autostart = true ∧ i.id ∉ c.running) ∧
      Table.Sorted tried ∧ TriesEach tried c result := by
  intro c result
  have hsorted : Table.Sorted quartet.instances := by
    unfold Table.Sorted
    decide
  exact ⟨hsorted, rfl, rfl, rfl, autostart_tries_each_once hsorted c⟩

end Control
end Daemon
end BotFleet
