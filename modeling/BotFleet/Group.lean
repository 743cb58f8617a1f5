import BotFleet.Json.Message

/-
Groups of users and the messages about them.

A group bundles users, so that an authority can be granted to all its members
at once.
-/

namespace BotFleet

open Json (Message)

structure Group where
  id : Id
  name : String
deriving DecidableEq

structure GroupView where
  id : Id
  name : String
  members : List Id
deriving DecidableEq

structure GroupRequest where
  name : String
deriving DecidableEq

instance : Message Group where
  shape := .record <| .cons "id" .refused .id <| .cons "name" .refused .text .nil
  toValue g := (g.id, g.name, ())
  ofValue := fun (id, name, _) => { id, name }

instance : Message GroupView where
  shape := .record <|
    .cons "id" .refused .id <|
    .cons "name" .refused .text <|
    .cons "members" .refused (.list .id) .nil
  toValue g := (g.id, g.name, g.members, ())
  ofValue := fun (id, name, members, _) => { id, name, members }

instance : Message GroupRequest where
  shape := .record <| .cons "name" .refused .text .nil
  toValue r := (r.name, ())
  ofValue := fun (name, _) => { name }

end BotFleet
