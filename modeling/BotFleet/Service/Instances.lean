import BotFleet.Service.Action

/-
Operations on instances.
-/

namespace BotFleet
namespace Service
namespace Instances

def list : Action Answer := do
  let views ← Action.read fun f => f.store.instances.map f.view
  return .shown (.list (views.map InstanceView.toJson))

def find (id : Id) : Action Instance :=
  Action.find (·.store.instance? id) (missing "Instance" id)

def view (i : Instance) : Action Json := Action.read fun f => (f.view i).toJson

def get (id : Id) : Action Answer := do
  return .shown (← view (← find id))

def create (settings : Settings) : Action Answer := do
  Action.check settings.validate
  let i ← Action.call (Store.createInstance settings)
  return .created (← view i) .instances

def edit (id : Id) (settings : Settings) : Action Answer := do
  Action.check settings.validate
  match ← Action.write (Store.updateInstance id settings) with
  | some i => return .changed (← view i) .instances
  | none => Action.fail (missing "Instance" id)

/-- The notice about an instance that is deleted while the daemon goes on running
it. -/
def notStopped (id : Id) (fault : Daemon.Fault) : Notice :=
  .warning s!"[Instances] Could not stop instance {id.val} before delete: {fault.message}"

/-- Stops an instance and deletes it.  One that cannot be stopped is deleted all
the same. -/
def delete (id : Id) : Action Answer := do
  let i ← find id
  let stopped ← Action.command (Daemon.Control.stop i.id)
  let _ ← Action.write (Store.deleteInstance id)
  let answer := Answer.done (some .instances)
  match stopped with
  | .ok _ => return answer
  | .error fault => return { answer with notices := [notStopped id fault] }

/-- Runs a command of the daemon for an instance.  Only one that the daemon was
sent and that it acknowledged has changed anything. -/
def steer (id : Id)
    (command : Instance → Daemon.Control → Except Daemon.Fault Bool × Daemon.Control) :
    Action Answer := do
  let i ← find id
  match ← Action.command (command i) with
  | .ok true => return .changed (← view i) .instanceState
  | .ok false => return .shown (← view i)
  | .error fault => Action.fail (.daemon fault)

def start (id : Id) : Action Answer := steer id Daemon.Control.start

def stop (id : Id) : Action Answer := steer id fun i => Daemon.Control.stop i.id

end Instances
end Service
end BotFleet
