import BotFleet.Http.Request

/-
The paths of the service.

A path is known by its parts between slashes, which have to match exactly.  Some
parts are parameters, and what stands in them is kept as it was sent: whether it
is an identifier only matters once the sender is known.
-/

namespace BotFleet
namespace Service

/-- What can be read and changed with a token. -/
inductive Resource where
  | me
  | users
  | user (id : String)
  | userAuthority (id authority : String)
  | groups
  | group (id : String)
  | groupMember (id user : String)
  | groupAuthority (id authority : String)
  | instances
  | inst (id : String)
  | instanceStart (id : String)
  | instanceStop (id : String)
  | authorities
deriving DecidableEq, Repr

/-- What a path names.  Logging in is all that can be done without a token. -/
inductive Route where
  | login
  /-- Where sockets are opened. -/
  | socket
  | resource (resource : Resource)
deriving DecidableEq, Repr

def segments (path : String) : List String := (path.toList.splitOn '/').map String.ofList

namespace Resource

/-- The resource that the parts of a path name.  A parameter at the end of a path
is not empty. -/
def ofSegments? : List String → Option Resource
  | ["", "api", "auth", "me"] => some me
  | ["", "api", "user"] => some users
  | ["", "api", "user", id] => if id.isEmpty then none else some (user id)
  | ["", "api", "user", id, "authority", authority] =>
    if authority.isEmpty then none else some (userAuthority id authority)
  | ["", "api", "group"] => some groups
  | ["", "api", "group", id] => if id.isEmpty then none else some (group id)
  | ["", "api", "group", id, "member", member] =>
    if member.isEmpty then none else some (groupMember id member)
  | ["", "api", "group", id, "authority", authority] =>
    if authority.isEmpty then none else some (groupAuthority id authority)
  | ["", "api", "instance"] => some instances
  | ["", "api", "instance", id] => if id.isEmpty then none else some (inst id)
  | ["", "api", "instance", id, "start"] => some (instanceStart id)
  | ["", "api", "instance", id, "stop"] => some (instanceStop id)
  | ["", "api", "authority"] => some authorities
  | _ => none

end Resource

namespace Route

def ofSegments? : List String → Option Route
  | ["", "api", "auth", "login"] => some login
  | ["", "socket"] => some socket
  | parts => (Resource.ofSegments? parts).map resource

def ofPath? (path : String) : Option Route := ofSegments? (segments path)

end Route
end Service
end BotFleet
