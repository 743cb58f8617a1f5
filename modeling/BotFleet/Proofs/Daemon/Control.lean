import BotFleet.Daemon.Link

/-
What starting and stopping an instance comes to.

Both commands look at the record of running instances first.  A command that the
record makes pointless sends nothing; any other sends one request, and the record
changes only when the daemon acknowledges it.
-/

namespace BotFleet
namespace Daemon
namespace Control

open Json (Message)

variable {c c' : Control}

theorem mem_insert {id other : Id} {running : List Id} :
    other ∈ insert id running ↔ other = id ∨ other ∈ running := by
  induction running with
  | nil => simp [insert]
  | cons a rest ih =>
    rw [insert]
    split
    · simp
    · rw [List.mem_cons, ih, List.mem_cons]
      exact or_left_comm

theorem isRunning_iff {id : Id} : c.isRunning id = true ↔ id ∈ c.running := by
  rw [isRunning, List.contains_iff_mem]

/-! ## Starting -/

theorem start_of_isRunning {i : Instance} (h : c.isRunning i.id = true) :
    c.start i = (.ok false, c) := by
  rw [start, if_pos h]

theorem start_eq_ok_true {i : Instance} (h : c.start i = (.ok true, c')) :
    c.isRunning i.id = false ∧ ∃ link,
      c.link.post "/instance/start" (Message.toJson (LoadRequest.ofInstance i initialVolume)) =
          (.ok (), link) ∧
        c' = ⟨insert i.id c.running, link⟩ := by
  unfold start at h
  split at h
  · cases h
  · rename_i hrun
    dsimp only at h
    split at h
    · rename_i link hpost
      cases h
      exact ⟨Bool.eq_false_iff.mpr hrun, link, hpost, rfl⟩
    · cases h

theorem start_eq_ok_false {i : Instance} (h : c.start i = (.ok false, c')) :
    c.isRunning i.id = true ∧ c' = c := by
  unfold start at h
  split at h
  · rename_i hrun
    cases h
    exact ⟨hrun, rfl⟩
  · dsimp only at h
    split at h <;> cases h

theorem start_eq_error {i : Instance} {fault : Fault} (h : c.start i = (.error fault, c')) :
    c.isRunning i.id = false ∧ ∃ link,
      c.link.post "/instance/start" (Message.toJson (LoadRequest.ofInstance i initialVolume)) =
          (.error fault, link) ∧
        c' = { c with link } := by
  unfold start at h
  split at h
  · cases h
  · rename_i hrun
    dsimp only at h
    split at h
    · cases h
    · rename_i f link hpost
      cases h
      exact ⟨Bool.eq_false_iff.mpr hrun, link, hpost, rfl⟩

/-- One request is sent for an instance that does not count as running, and none for
one that does. -/
theorem start_link (i : Instance) (c : Control) :
    (c.start i).2.link =
      if c.isRunning i.id then c.link
      else c.link.record "/instance/start"
        (Message.toJson (LoadRequest.ofInstance i initialVolume)) := by
  rcases hstart : c.start i with ⟨fault | _ | _, c'⟩
  · obtain ⟨hrun, link, hpost, rfl⟩ := start_eq_error hstart
    rw [hrun]
    exact (congrArg Prod.snd hpost).symm
  · obtain ⟨hrun, rfl⟩ := start_eq_ok_false hstart
    rw [hrun]
    rfl
  · obtain ⟨hrun, link, hpost, rfl⟩ := start_eq_ok_true hstart
    rw [hrun]
    exact (congrArg Prod.snd hpost).symm

/-! ## Stopping -/

theorem stop_of_not_isRunning {id : Id} (h : c.isRunning id = false) :
    c.stop id = (.ok false, c) := by
  rw [stop, h]
  rfl

theorem stop_eq_ok_true {id : Id} (h : c.stop id = (.ok true, c')) :
    c.isRunning id = true ∧ ∃ link,
      c.link.post "/instance/stop" (Message.toJson (StopRequest.mk id)) = (.ok (), link) ∧
        c' = ⟨c.running.filter (· != id), link⟩ := by
  unfold stop at h
  split at h
  · cases h
  · rename_i hrun
    split at h
    · rename_i link hpost
      cases h
      exact ⟨by simpa using hrun, link, hpost, rfl⟩
    · cases h

theorem stop_eq_ok_false {id : Id} (h : c.stop id = (.ok false, c')) :
    c.isRunning id = false ∧ c' = c := by
  unfold stop at h
  split at h
  · rename_i hrun
    cases h
    exact ⟨by simpa using hrun, rfl⟩
  · split at h <;> cases h

theorem stop_eq_error {id : Id} {fault : Fault} (h : c.stop id = (.error fault, c')) :
    c.isRunning id = true ∧ ∃ link,
      c.link.post "/instance/stop" (Message.toJson (StopRequest.mk id)) = (.error fault, link) ∧
        c' = { c with link } := by
  unfold stop at h
  split at h
  · cases h
  · rename_i hrun
    split at h
    · cases h
    · rename_i f link hpost
      cases h
      exact ⟨by simpa using hrun, link, hpost, rfl⟩

/-! ## The record of running instances -/

theorem isRunning_of_start {i : Instance} {started : Bool} {id : Id}
    (h : c.start i = (.ok started, c')) : c'.isRunning id = (id == i.id || c.isRunning id) := by
  cases started
  · obtain ⟨hrun, rfl⟩ := start_eq_ok_false h
    by_cases hid : id = i.id
    · rw [hid, hrun, Bool.or_true]
    · rw [beq_eq_false_iff_ne.mpr hid, Bool.false_or]
  · obtain ⟨-, link, -, rfl⟩ := start_eq_ok_true h
    rw [Bool.eq_iff_iff, Bool.or_eq_true, beq_iff_eq, isRunning_iff, isRunning_iff]
    exact mem_insert

theorem running_of_start_error {i : Instance} {fault : Fault}
    (h : c.start i = (.error fault, c')) : c'.running = c.running := by
  obtain ⟨-, link, -, rfl⟩ := start_eq_error h
  rfl

theorem isRunning_of_stop {stopped : Bool} {id other : Id}
    (h : c.stop id = (.ok stopped, c')) :
    c'.isRunning other = (c.isRunning other && other != id) := by
  cases stopped
  · obtain ⟨hrun, rfl⟩ := stop_eq_ok_false h
    by_cases hid : other = id
    · rw [hid, hrun, Bool.false_and]
    · rw [bne_iff_ne.mpr hid, Bool.and_true]
  · obtain ⟨-, link, -, rfl⟩ := stop_eq_ok_true h
    rw [Bool.eq_iff_iff, Bool.and_eq_true, isRunning_iff, isRunning_iff]
    exact List.mem_filter

theorem running_of_stop_error {id : Id} {fault : Fault}
    (h : c.stop id = (.error fault, c')) : c'.running = c.running := by
  obtain ⟨-, link, -, rfl⟩ := stop_eq_error h
  rfl

/-- Only instances that are tried get on the record. -/
theorem mem_running_autostart {instances : List Instance} {id : Id}
    (h : id ∈ (autostart instances c).control.running) :
    id ∈ c.running ∨ ∃ i ∈ instances, i.id = id := by
  induction instances generalizing c with
  | nil => exact .inl h
  | cons i rest ih =>
    rw [autostart] at h
    rcases hstart : start i c with ⟨fault | _ | _, c'⟩
    · rw [hstart] at h
      rw [← running_of_start_error hstart]
      exact (ih h).imp_right fun ⟨j, hj, hid⟩ => ⟨j, List.mem_cons_of_mem _ hj, hid⟩
    · rw [hstart] at h
      obtain ⟨-, rfl⟩ := start_eq_ok_false hstart
      exact (ih h).imp_right fun ⟨j, hj, hid⟩ => ⟨j, List.mem_cons_of_mem _ hj, hid⟩
    · rw [hstart] at h
      rcases ih h with hmem | ⟨j, hj, hid⟩
      · obtain ⟨-, link, -, rfl⟩ := start_eq_ok_true hstart
        rcases mem_insert.mp hmem with hid | hmem
        · exact .inr ⟨i, List.mem_cons_self, hid.symm⟩
        · exact .inl hmem
      · exact .inr ⟨j, List.mem_cons_of_mem _ hj, hid⟩

end Control
end Daemon
end BotFleet
