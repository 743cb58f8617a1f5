import BotFleet.Daemon.Link
import BotFleet.Failure
import BotFleet.Json.Message
import BotFleet.Registry
import BotFleet.Store.Groups
import BotFleet.Store.Instances
import BotFleet.Store.Users

/-
Actions on what the service looks after.

An action reads and writes the store and the running instances, and it answers or
fails.  It does not notify anybody: its answer names the change that it made, and
whoever performs the action tells the subscribers once.
-/

namespace BotFleet
namespace Service

open Json (Message)

/-- What the service looks after: what is stored, and what is running. -/
structure Fleet where
  store : Store
  control : Daemon.Control

namespace Fleet

def isRunning (f : Fleet) (id : Id) : Bool := f.control.isRunning id

/-- An instance as clients see it. -/
def view (f : Fleet) (i : Instance) : InstanceView := ⟨i, f.isRunning i.id⟩

end Fleet

/-- The surroundings of an action that it cannot change. -/
structure Context where
  config : Config
  scheme : Password.Scheme
  now : Instant
  /-- The salt for the next password hash. -/
  salt : List UInt8
  session : SessionId

namespace Context

/-- The present, in whole seconds. -/
def seconds (c : Context) : Tally := .clamp _ _ (by decide) c.now.seconds

end Context

structure Answer where
  status : Nat
  body : Option Json
  /-- The change that the action made, if it made one. -/
  change : Option Change
  notices : List Notice

namespace Answer

def shown (body : Json) : Answer := ⟨200, some body, none, []⟩

/-- Shows what a change has made of something. -/
def changed (body : Json) (change : Change) : Answer := ⟨200, some body, some change, []⟩

/-- Shows something new. -/
def created (body : Json) (change : Change) : Answer := ⟨201, some body, some change, []⟩

def done (change : Option Change) : Answer := ⟨204, none, change, []⟩

end Answer

/-- An action that answers or fails, and leaves what it has done behind in either
case. -/
def Action (α : Type) : Type := Fleet → Except Failure α × Fleet

namespace Action

variable {α β : Type}

def run (a : Action α) (f : Fleet) : Except Failure α × Fleet := a f

/-- An action goes on with what the one before it has left behind, unless that
one failed. -/
instance : Monad Action where
  pure a := fun f => (.ok a, f)
  bind a next := fun f =>
    match a f with
    | (.ok x, f) => next x f
    | (.error failure, f) => (.error failure, f)

@[simp] theorem run_pure (a : α) (f : Fleet) : (pure a : Action α).run f = (.ok a, f) := rfl

@[simp] theorem run_bind (a : Action α) (next : α → Action β) (f : Fleet) :
    (a >>= next).run f =
      match a.run f with
      | (.ok x, f) => (next x).run f
      | (.error failure, f) => (.error failure, f) := rfl

/-! ## Steps -/

def fail (failure : Failure) : Action α := fun f => (.error failure, f)

def read (view : Fleet → α) : Action α := fun f => (.ok (view f), f)

def find (view : Fleet → Option α) (missing : Failure) : Action α := fun f =>
  match view f with
  | some a => (.ok a, f)
  | none => (.error missing, f)

def check (result : Except Violation Unit) : Action Unit := fun f =>
  (result.mapError Failure.invalid, f)

def call (g : Store → Store.Call α) : Action α := fun f =>
  match g f.store with
  | .ok (a, store) => (.ok a, { f with store })
  | .error fault => (.error (.store fault), f)

def write (g : Store → α × Store) : Action α := fun f =>
  (.ok (g f.store).1, { f with store := (g f.store).2 })

def command (g : Daemon.Control → Except Daemon.Fault α × Daemon.Control) :
    Action (Except Daemon.Fault α) := fun f =>
  (.ok (g f.control).1, { f with control := (g f.control).2 })

def hash (c : Context) (password : String) : Action String := fun f =>
  ((c.scheme.hash c.config.hashCost c.salt password).mapError Failure.password, f)

@[simp] theorem run_fail (failure : Failure) (f : Fleet) :
    (fail failure : Action α).run f = (.error failure, f) := rfl

@[simp] theorem run_read (view : Fleet → α) (f : Fleet) : (read view).run f = (.ok (view f), f) :=
  rfl

@[simp] theorem run_find (view : Fleet → Option α) (missing : Failure) (f : Fleet) :
    (find view missing).run f =
      match view f with
      | some a => (.ok a, f)
      | none => (.error missing, f) := rfl

@[simp] theorem run_check (result : Except Violation Unit) (f : Fleet) :
    (check result).run f = (result.mapError Failure.invalid, f) := rfl

@[simp] theorem run_call (g : Store → Store.Call α) (f : Fleet) :
    (call g).run f =
      match g f.store with
      | .ok (a, store) => (.ok a, { f with store })
      | .error fault => (.error (.store fault), f) := rfl

@[simp] theorem run_write (g : Store → α × Store) (f : Fleet) :
    (write g).run f = (.ok (g f.store).1, { f with store := (g f.store).2 }) := rfl

@[simp] theorem run_command (g : Daemon.Control → Except Daemon.Fault α × Daemon.Control)
    (f : Fleet) :
    (command g).run f = (.ok (g f.control).1, { f with control := (g f.control).2 }) := rfl

@[simp] theorem run_hash (c : Context) (password : String) (f : Fleet) :
    (hash c password).run f =
      ((c.scheme.hash c.config.hashCost c.salt password).mapError Failure.password, f) := rfl

end Action

def missing (resource : String) (id : Id) : Failure :=
  .notFound resource (Numeral.ofInt id.val)

def missingPair (resource : String) (first second : Id) : Failure :=
  .notFound resource (Numeral.ofInt first.val ++ "/" ++ Numeral.ofInt second.val)

end Service
end BotFleet
