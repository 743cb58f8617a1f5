import BotFleet.Json.Message

/-
Accounts, authorities and the messages about them.

A stored user carries the hash of a password, which is read from a message if it
is there and never written to one.
-/

namespace BotFleet

open Json (Message Shape)

structure User where
  id : Id
  username : String
  enabled : Bool
  password : String
  created : Instant
deriving DecidableEq

structure Authority where
  id : Id
  name : String
deriving DecidableEq

/-- An account as its owner sees it, with all authorities it has. -/
structure Profile where
  id : Id
  username : String
  enabled : Bool
  authorities : List String
deriving DecidableEq

structure Login where
  username : String
  password : String
deriving DecidableEq

structure Welcome where
  token : String
  user : Profile
deriving DecidableEq

structure NewUser where
  username : String
  password : String
  enabled : Bool
deriving DecidableEq

/-- A request to alter an account.  What is absent stays as it is. -/
structure UserEdit where
  username : Option String
  enabled : Option Bool
  password : Option String
deriving DecidableEq

instance : Message User where
  shape := .record <|
    .cons "id" .refused .id <|
    .cons "username" .refused .text <|
    .cons "enabled" .refused .flag <|
    .cons "password" .noted .text <|
    .cons "created" .refused .instant .nil
  toValue u := (u.id, u.username, u.enabled, none, u.created, ())
  ofValue := fun (id, username, enabled, password, created, _) =>
    { id, username, enabled, password := password.getD "", created }

instance : Message Authority where
  shape := .record <| .cons "id" .refused .id <| .cons "authority" .refused .text .nil
  toValue a := (a.id, a.name, ())
  ofValue := fun (id, name, _) => { id, name }

abbrev Profile.shape : Shape := .record <|
  .cons "id" .refused .id <|
  .cons "username" .refused .text <|
  .cons "enabled" .refused .flag <|
  .cons "authorities" .refused (.list .text) .nil

def Profile.toValue (p : Profile) : Profile.shape.Value :=
  (p.id, p.username, p.enabled, p.authorities, ())

def Profile.ofValue : Profile.shape.Value → Profile :=
  fun (id, username, enabled, authorities, _) => { id, username, enabled, authorities }

instance : Message Profile where
  shape := Profile.shape
  toValue := Profile.toValue
  ofValue := Profile.ofValue

instance : Message Login where
  shape := .record <|
    .cons "username" .refused .text <| .cons "password" .refused .text .nil
  toValue l := (l.username, l.password, ())
  ofValue := fun (username, password, _) => { username, password }

instance : Message Welcome where
  shape := .record <|
    .cons "token" .refused .text <| .cons "user" .refused Profile.shape .nil
  toValue w := (w.token, w.user.toValue, ())
  ofValue := fun (token, user, _) => { token, user := Profile.ofValue user }

instance : Message NewUser where
  shape := .record <|
    .cons "username" .refused .text <|
    .cons "password" .refused .text <|
    .cons "enabled" .noted .flag .nil
  toValue n := (n.username, n.password, some n.enabled, ())
  ofValue := fun (username, password, enabled, _) =>
    { username, password, enabled := enabled.getD true }

instance : Message UserEdit where
  shape := .record <|
    .cons "username" .noted (.optional .text) <|
    .cons "enabled" .noted (.optional .flag) <|
    .cons "password" .noted (.optional .text) .nil
  toValue e := (some e.username, some e.enabled, some e.password, ())
  ofValue := fun (username, enabled, password, _) =>
    { username := username.getD none, enabled := enabled.getD none,
      password := password.getD none }

end BotFleet
