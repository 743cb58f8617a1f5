import BotFleet.Instance

/-
What the daemon is told.

A start request carries everything the daemon needs to connect an instance.
Those settings stand under the kind of voice server they are for.
-/

namespace BotFleet
namespace Daemon

open Json (Message)

structure Connection where
  host : String
  port : Option Port
  identity : String
  channel : Option Channel
  name : String
  password : Option String
deriving DecidableEq

structure LoadRequest where
  id : Id
  connection : Connection
  volume : Double

/-- The volume that an instance starts with, one twentieth. -/
def initialVolume : Double :=
  ⟨false, Double.nearest (5 * Double.one) 100, Double.isExact_nearest _ _, by decide +kernel⟩

namespace LoadRequest

/-- The request that starts an instance.  An instance without an identity is
given an empty one, and the daemon makes one up. -/
def ofInstance (i : Instance) (volume : Double) : LoadRequest where
  id := i.id
  connection :=
    { host := i.settings.host, port := some i.settings.port,
      identity := i.settings.identity.getD "", channel := i.settings.channel,
      name := i.settings.name, password := i.settings.password }
  volume := volume

end LoadRequest

abbrev Connection.shape : Json.Shape := .record <|
  .cons "host" .refused .text <|
  .cons "port" .refused (.optional .port) <|
  .cons "identity" .refused .text <|
  .cons "cid" .refused (.optional .channel) <|
  .cons "name" .refused .text <|
  .cons "password" .refused (.optional .text) .nil

def Connection.toValue (c : Connection) : Connection.shape.Value :=
  (c.host, c.port, c.identity, c.channel, c.name, c.password, ())

def Connection.ofValue : Connection.shape.Value → Connection :=
  fun (host, port, identity, channel, name, password, _) =>
    { host, port, identity, channel, name, password }

instance : Message LoadRequest where
  shape := .record <|
    .cons "id" .refused .id <|
    .cons "data" .refused (.tagged "TS" Connection.shape) <|
    .cons "volume" .refused .real .nil
  toValue r := (r.id, r.connection.toValue, r.volume, ())
  ofValue := fun (id, connection, volume, _) =>
    { id, connection := Connection.ofValue connection, volume }

structure StopRequest where
  id : Id

instance : Message StopRequest where
  shape := .record <| .cons "id" .refused .id .nil
  toValue r := (r.id, ())
  ofValue := fun (id, _) => ⟨id⟩

structure Refusal where
  detail : Option String

instance : Message Refusal where
  shape := .record <| .cons "msg" .refused (.optional .text) .nil
  toValue r := (r.detail, ())
  ofValue := fun (detail, _) => ⟨detail⟩

end Daemon
end BotFleet
