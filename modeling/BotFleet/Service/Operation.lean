import BotFleet.Account
import BotFleet.Group
import BotFleet.Http.Media
import BotFleet.Http.Percent
import BotFleet.Http.Rejection
import BotFleet.Instance
import BotFleet.Service.Resource

/-
What requests ask for.

A request for a resource is read into an operation before anything is done.  The
parameters of the path are read first and the body after them, so of two faults
the one in the path is reported.  `Resource.reader?` is the only place that
decides which methods a resource knows.
-/

namespace BotFleet
namespace Service

open Http (Rejection Request Verb)
open Json (Message)

inductive Operation where
  | showMe
  | listUsers
  | showUser (id : Id)
  | createUser (request : NewUser)
  | editUser (id : Id) (edit : UserEdit)
  | deleteUser (id : Id)
  | grantUser (id authority : Id)
  | revokeUser (id authority : Id)
  | listGroups
  | showGroup (id : Id)
  | createGroup (request : GroupRequest)
  | renameGroup (id : Id) (request : GroupRequest)
  | deleteGroup (id : Id)
  | addMember (group user : Id)
  | removeMember (group user : Id)
  | grantGroup (id authority : Id)
  | revokeGroup (id authority : Id)
  | listInstances
  | showInstance (id : Id)
  | createInstance (settings : Settings)
  | editInstance (id : Id) (settings : Settings)
  | deleteInstance (id : Id)
  | startInstance (id : Id)
  | stopInstance (id : Id)
  | listAuthorities
deriving DecidableEq

/-! ## Parameters -/

def parameter (name raw : String) : Except Rejection String :=
  match Http.Percent.decode? raw with
  | some text => .ok text
  | none => .error (.undecodable name)

def identifier (fault : String → Rejection) (text : String) : Except Rejection Id :=
  match (Numeral.read? _ _ text.toList : Option Id) with
  | some id => .ok id
  | none => .error (fault text)

def oneId (raw : String) : Except Rejection Id := do
  identifier .notId (← parameter "id" raw)

/-- The parameters of a path that has two.  Both are decoded before either is
read. -/
def twoIds (first : String) (name second : String) : Except Rejection (Id × Id) := do
  let first ← parameter "id" first
  let second ← parameter name second
  let first ← identifier (.notIdAt 0) first
  let second ← identifier (.notIdAt 1) second
  return (first, second)

/-! ## Bodies -/

/-- The greatest number of bytes that a body may have. -/
def longestBody : Nat := 2097152

def bodyOf (α : Type) [Message α] (r : Request) : Except Rejection α :=
  if !(r.text? "content-type").any Http.Media.isJson then .error .notJson
  else if longestBody < Utf8.size r.body then .error .tooLong
  else
    match (Message.read r.body : Except Json.Fault α) with
    | .ok a => .ok a
    | .error .mismatched => .error .mismatched
    | .error _ => .error .malformed

/-! ## Methods -/

/-- How a request is read into an operation. -/
abbrev Reader := Request → Except Rejection Operation

namespace Reader

def plain (operation : Operation) : Reader := fun _ => .ok operation

def withId (id : String) (operation : Id → Operation) : Reader := fun _ =>
  (oneId id).map operation

def withIds (first name second : String) (operation : Id → Id → Operation) : Reader := fun _ =>
  (twoIds first name second).map fun (a, b) => operation a b

def withBody {α : Type} [Message α] (operation : α → Operation) : Reader := fun r =>
  (bodyOf α r).map operation

def withIdAndBody {α : Type} [Message α] (id : String) (operation : Id → α → Operation) :
    Reader := fun r => do
  let id ← oneId id
  let body ← bodyOf α r
  return operation id body

end Reader

namespace Resource

/-- How a request with a method that is not HEAD is read, if the resource knows
the method. -/
def readerOf? : Resource → Verb → Option Reader
  | me, .get => some (.plain .showMe)
  | users, .get => some (.plain .listUsers)
  | users, .post => some (.withBody .createUser)
  | user id, .get => some (.withId id .showUser)
  | user id, .put => some (.withIdAndBody id .editUser)
  | user id, .delete => some (.withId id .deleteUser)
  | userAuthority id authority, .put => some (.withIds id "authority_id" authority .grantUser)
  | userAuthority id authority, .delete => some (.withIds id "authority_id" authority .revokeUser)
  | groups, .get => some (.plain .listGroups)
  | groups, .post => some (.withBody .createGroup)
  | group id, .get => some (.withId id .showGroup)
  | group id, .put => some (.withIdAndBody id .renameGroup)
  | group id, .delete => some (.withId id .deleteGroup)
  | groupMember id member, .put => some (.withIds id "user_id" member .addMember)
  | groupMember id member, .delete => some (.withIds id "user_id" member .removeMember)
  | groupAuthority id authority, .put => some (.withIds id "authority_id" authority .grantGroup)
  | groupAuthority id authority, .delete =>
    some (.withIds id "authority_id" authority .revokeGroup)
  | instances, .get => some (.plain .listInstances)
  | instances, .post => some (.withBody .createInstance)
  | inst id, .get => some (.withId id .showInstance)
  | inst id, .put => some (.withIdAndBody id .editInstance)
  | inst id, .delete => some (.withId id .deleteInstance)
  | instanceStart id, .put => some (.withId id .startInstance)
  | instanceStop id, .put => some (.withId id .stopInstance)
  | authorities, .get => some (.plain .listAuthorities)
  | _, _ => none

/-- How a request is read, if the resource knows the method.  HEAD is read as GET
is. -/
def reader? (resource : Resource) (verb : Verb) : Option Reader :=
  match verb with
  | .head => resource.readerOf? .get
  | _ => resource.readerOf? verb

/-- The methods that a resource may know, in the order in which they are listed. -/
def candidates : List Verb := [.get, .head, .post, .put, .delete]

def allowed (resource : Resource) : List Verb :=
  candidates.filter fun v => (resource.reader? v).isSome

end Resource

def Route.allowed : Route → List Verb
  | login => [.post]
  | socket => [.get, .head]
  | resource r => r.allowed

end Service
end BotFleet
