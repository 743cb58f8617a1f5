import BotFleet.Service.Action

/-
How the steps of an action end.

An action that succeeds has gone through all of its steps, and one that fails has
gone through those before the step that failed.  The lemmas here take the first
step off an action and say what it found and with which fleet the rest goes on.
-/

namespace BotFleet
namespace Service
namespace Action

variable {α β : Type} {f f' : Fleet} {failure : Failure} {y : β}

theorem run_bind_bind {γ : Type} (a : Action γ) (b : γ → Action α) (next : α → Action β)
    (f : Fleet) : ((a >>= b) >>= next).run f = (a >>= fun x => b x >>= next).run f := by
  rw [run_bind, run_bind, run_bind]
  rcases a.run f with ⟨failure | x, g⟩
  · rfl
  · exact (run_bind _ _ _).symm

/-! ## Steps that find something -/

theorem run_find_bind_ok {view : Fleet → Option α} {missing : Failure} {next : α → Action β}
    (h : (find view missing >>= next).run f = (.ok y, f')) :
    ∃ x, view f = some x ∧ (next x).run f = (.ok y, f') := by
  rw [run_bind, run_find] at h
  cases hv : view f with
  | none => rw [hv] at h; cases h
  | some x => rw [hv] at h; exact ⟨x, rfl, h⟩

theorem run_find_bind_error {view : Fleet → Option α} {missing : Failure} {next : α → Action β}
    (h : (find view missing >>= next).run f = (.error failure, f')) :
    (view f = none ∧ failure = missing ∧ f' = f) ∨
      ∃ x, view f = some x ∧ (next x).run f = (.error failure, f') := by
  rw [run_bind, run_find] at h
  cases hv : view f with
  | none => rw [hv] at h; cases h; exact .inl ⟨rfl, rfl, rfl⟩
  | some x => rw [hv] at h; exact .inr ⟨x, rfl, h⟩

/-! ## Rules -/

theorem run_check_bind_ok {result : Except Violation Unit} {next : Unit → Action β}
    (h : (check result >>= next).run f = (.ok y, f')) :
    result = .ok () ∧ (next ()).run f = (.ok y, f') := by
  rw [run_bind, run_check] at h
  cases result with
  | error v => cases h
  | ok u => exact ⟨rfl, h⟩

theorem run_check_bind_error {result : Except Violation Unit} {next : Unit → Action β}
    (h : (check result >>= next).run f = (.error failure, f')) :
    (∃ v, result = .error v ∧ failure = .invalid v ∧ f' = f) ∨
      (result = .ok () ∧ (next ()).run f = (.error failure, f')) := by
  rw [run_bind, run_check] at h
  cases result with
  | error v => cases h; exact .inl ⟨v, rfl, rfl, rfl⟩
  | ok u => exact .inr ⟨rfl, h⟩

theorem run_check_bind_of_ok {result : Except Violation Unit} (h : result = .ok ())
    (next : Unit → Action β) (f : Fleet) : (check result >>= next).run f = (next ()).run f := by
  rw [run_bind, run_check, h]
  rfl

theorem run_check_bind_of_error {result : Except Violation Unit} {v : Violation}
    (h : result = .error v) (next : Unit → Action β) (f : Fleet) :
    (check result >>= next).run f = (.error (.invalid v), f) := by
  rw [run_bind, run_check, h]
  rfl

theorem run_forM_check_bind_ok {γ : Type} {x : Option γ} {rule : γ → Except Violation Unit}
    {next : Unit → Action β}
    (h : ((x.forM fun y => check (rule y)) >>= next).run f = (.ok y, f')) :
    (∀ y ∈ x, rule y = .ok ()) ∧ (next ()).run f = (.ok y, f') := by
  cases x with
  | none => exact ⟨by simp, h⟩
  | some z =>
    obtain ⟨hz, h⟩ := run_check_bind_ok h
    refine ⟨?_, h⟩
    rintro y ⟨⟩
    exact hz

theorem run_forM_check_bind_error {γ : Type} {x : Option γ} {rule : γ → Except Violation Unit}
    {next : Unit → Action β}
    (h : ((x.forM fun y => check (rule y)) >>= next).run f = (.error failure, f')) :
    f' = f ∨ (next ()).run f = (.error failure, f') := by
  cases x with
  | none => exact .inr h
  | some z =>
    rcases run_check_bind_error h with ⟨v, -, -, rfl⟩ | ⟨-, h⟩
    · exact .inl rfl
    · exact .inr h

/-! ## Calls on the store -/

theorem run_call_bind_ok {g : Store → Store.Call α} {next : α → Action β}
    (h : (call g >>= next).run f = (.ok y, f')) :
    ∃ x store, g f.store = .ok (x, store) ∧ (next x).run { f with store } = (.ok y, f') := by
  rw [run_bind, run_call] at h
  rcases hg : g f.store with fault | ⟨x, store⟩
  · rw [hg] at h
    cases h
  · rw [hg] at h
    exact ⟨x, store, rfl, h⟩

theorem run_call_bind_error {g : Store → Store.Call α} {next : α → Action β}
    (h : (call g >>= next).run f = (.error failure, f')) :
    (∃ fault, g f.store = .error fault ∧ failure = .store fault ∧ f' = f) ∨
      ∃ x store, g f.store = .ok (x, store) ∧
        (next x).run { f with store } = (.error failure, f') := by
  rw [run_bind, run_call] at h
  rcases hg : g f.store with fault | ⟨x, store⟩
  · rw [hg] at h
    cases h
    exact .inl ⟨fault, rfl, rfl, rfl⟩
  · rw [hg] at h
    exact .inr ⟨x, store, rfl, h⟩

/-- What is taken away has to have been there. -/
theorem run_write_guard_ok {g : Store → Bool × Store} {done : Action β} {missing : Failure}
    (h : (do if ← write g then done else fail missing : Action β).run f = (.ok y, f')) :
    (g f.store).1 = true ∧ done.run { f with store := (g f.store).2 } = (.ok y, f') := by
  rw [run_bind, run_write] at h
  cases hg : (g f.store).1
  · rw [hg] at h
    cases h
  · rw [hg] at h
    exact ⟨rfl, h⟩

theorem run_write_guard_error {g : Store → Bool × Store} {done : Action β} {missing : Failure}
    (h : (do if ← write g then done else fail missing : Action β).run f = (.error failure, f')) :
    ((g f.store).1 = false ∧ failure = missing ∧ f' = { f with store := (g f.store).2 }) ∨
      ((g f.store).1 = true ∧
        done.run { f with store := (g f.store).2 } = (.error failure, f')) := by
  rw [run_bind, run_write] at h
  cases hg : (g f.store).1
  · rw [hg] at h
    cases h
    exact .inl ⟨rfl, rfl, rfl⟩
  · rw [hg] at h
    exact .inr ⟨rfl, h⟩

/-! ## Hashing -/

theorem run_hash_bind_ok {c : Context} {password : String} {next : String → Action β}
    (h : (hash c password >>= next).run f = (.ok y, f')) :
    ∃ stored, c.scheme.hash c.config.hashCost c.salt password = .ok stored ∧
      (next stored).run f = (.ok y, f') := by
  rw [run_bind, run_hash] at h
  cases hx : c.scheme.hash c.config.hashCost c.salt password with
  | error e => rw [hx] at h; cases h
  | ok x => rw [hx] at h; exact ⟨x, rfl, h⟩

theorem run_hash_bind_error {c : Context} {password : String} {next : String → Action β}
    (h : (hash c password >>= next).run f = (.error failure, f')) :
    (∃ fault, c.scheme.hash c.config.hashCost c.salt password = .error fault ∧
        failure = .password fault ∧ f' = f) ∨
      ∃ stored, c.scheme.hash c.config.hashCost c.salt password = .ok stored ∧
        (next stored).run f = (.error failure, f') := by
  rw [run_bind, run_hash] at h
  cases hx : c.scheme.hash c.config.hashCost c.salt password with
  | error e => rw [hx] at h; cases h; exact .inl ⟨e, rfl, rfl, rfl⟩
  | ok x => rw [hx] at h; exact .inr ⟨x, rfl, h⟩

end Action
end Service
end BotFleet
