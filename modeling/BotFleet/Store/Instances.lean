import BotFleet.Store.Basic

/-
Stored instances: a map from identifiers to settings.
-/

namespace BotFleet
namespace Store

def instance? (s : Store) (id : Id) : Option Instance := Table.find? id s.instances

/-- The instances that start together with the service. -/
def autostartInstances (s : Store) : List Instance :=
  s.instances.filter fun i => i.settings.autostart

def createInstance (settings : Settings) (s : Store) : Call Instance :=
  match Table.nextId? s.instances with
  | none => .error full
  | some id =>
    let i : Instance := ⟨id, settings⟩
    .ok (i, { s with instances := Table.insert i s.instances })

/-- The instance with new settings.  Settings without a password keep the one
that is stored. -/
def resettle (settings : Settings) (i : Instance) : Instance :=
  { i with settings := { settings with password := settings.password <|> i.settings.password } }

/-- Replaces the settings of an instance, if there is one with the identifier. -/
def updateInstance (id : Id) (settings : Settings) (s : Store) : Option Instance × Store :=
  match s.instance? id with
  | none => (none, s)
  | some i => (some (resettle settings i), { s with
      instances := Table.update id (resettle settings) s.instances })

def deleteInstance (id : Id) (s : Store) : Bool × Store :=
  (Table.has id s.instances, { s with instances := Table.erase id s.instances })

end Store
end BotFleet
