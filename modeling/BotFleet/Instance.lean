import BotFleet.Json.Message
import BotFleet.Validation

/-
Instances and the messages about them.

An instance is one voice bot with the settings it connects with.  Whether it is
running is not stored with it, since only the daemon's answers tell.
-/

namespace BotFleet

open Json (Message)

/-- What an instance connects with. -/
structure Settings where
  name : String
  host : String
  port : Port
  identity : Option String
  /-- The channel to join once connected. -/
  channel : Option Channel
  password : Option String
  /-- Whether the service starts the instance when it starts itself. -/
  autostart : Bool
deriving DecidableEq

structure Instance where
  id : Id
  settings : Settings
deriving DecidableEq

namespace Settings

def validate (s : Settings) : Except Violation Unit := do
  Validation.name "name" s.name
  Validation.name "host" s.host
  if s.port.val = 0 then .error ⟨"port", Validation.noPort⟩ else .ok ()

end Settings

instance : Message Settings where
  shape := .record <|
    .cons "name" .refused .text <|
    .cons "host" .refused .text <|
    .cons "port" .refused .port <|
    .cons "identity" .noted (.optional .text) <|
    .cons "cid" .noted (.optional .channel) <|
    .cons "password" .noted (.optional .text) <|
    .cons "autostart" .noted .flag .nil
  toValue s :=
    (s.name, s.host, s.port, some s.identity, some s.channel, some s.password,
      some s.autostart, ())
  ofValue := fun (name, host, port, identity, channel, password, autostart, _) =>
    { name, host, port, identity := identity.getD none, channel := channel.getD none,
      password := password.getD none, autostart := autostart.getD false }

instance : Message Instance where
  shape := .record <|
    .cons "id" .refused .id <|
    .cons "name" .refused .text <|
    .cons "host" .refused .text <|
    .cons "port" .refused .port <|
    .cons "identity" .refused (.optional .text) <|
    .cons "cid" .refused (.optional .channel) <|
    .cons "password" .noted (.optional .text) <|
    .cons "autostart" .refused .flag .nil
  toValue i :=
    (i.id, i.settings.name, i.settings.host, i.settings.port, i.settings.identity,
      i.settings.channel, none, i.settings.autostart, ())
  ofValue := fun (id, name, host, port, identity, channel, password, autostart, _) =>
    { id
      settings :=
        { name, host, port, identity, channel, password := password.getD none, autostart } }

/-- An instance as clients see it: without its password, and with word whether it
is running. -/
structure InstanceView where
  inst : Instance
  running : Bool
deriving DecidableEq

namespace InstanceView

def toJson (v : InstanceView) : Json :=
  match Message.toJson v.inst with
  | .record fields => .record (fields ++ [("running", .flag v.running)])
  | other => other

end InstanceView
end BotFleet
