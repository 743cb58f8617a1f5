import BotFleet.Http.Handshake
import BotFleet.Http.Origin
import BotFleet.Service.Groups
import BotFleet.Service.Instances
import BotFleet.Service.Login
import BotFleet.Service.Operation
import BotFleet.Service.Sender
import BotFleet.Service.Users

/-
Requests and their answers.

A request passes the same stages in the same order, whatever it asks for: its
path is looked up, its sender is identified, its method is checked, it is read
into an operation, and the operation is performed.  Only the last stage changes
anything, and only here are subscribers notified.
-/

namespace BotFleet
namespace Service

open Http (Header Rejection Request Response)
open Json (Message)

structure State where
  fleet : Fleet
  registry : Registry

structure Served where
  response : Response
  state : State
  notices : List Notice

/-! ## Performing operations -/

def listAuthorities : Action Answer := do
  let authorities ← Action.read fun f => f.store.authorities
  return .shown (.list (authorities.map Message.toJson))

def Operation.perform (c : Context) (sender : Sender) : Operation → Action Answer
  | showMe => sender.showMe
  | listUsers => Users.list
  | showUser id => Users.get id
  | createUser request => Users.create c request
  | editUser id request => Users.edit c id request
  | deleteUser id => Users.delete id
  | grantUser id authority => Users.grant id authority
  | revokeUser id authority => Users.revoke id authority
  | listGroups => Groups.list
  | showGroup id => Groups.get id
  | createGroup request => Groups.create request
  | renameGroup id request => Groups.rename id request
  | deleteGroup id => Groups.delete id
  | addMember group user => Groups.addMember group user
  | removeMember group user => Groups.removeMember group user
  | grantGroup id authority => Groups.grant id authority
  | revokeGroup id authority => Groups.revoke id authority
  | listInstances => Instances.list
  | showInstance id => Instances.get id
  | createInstance settings => Instances.create settings
  | editInstance id settings => Instances.edit id settings
  | deleteInstance id => Instances.delete id
  | startInstance id => Instances.start id
  | stopInstance id => Instances.stop id
  | listAuthorities => Service.listAuthorities

/-! ## Answering -/

namespace Answer

def content (a : Answer) : Http.Content :=
  match a.body with
  | some body => .json body
  | none => .empty

def response (a : Answer) : Response := .of a.status a.content

end Answer

namespace State

def announce (change : Option Change) (registry : Registry) : Registry.Delivery :=
  match change with
  | some change => registry.notifyChange change
  | none => ⟨registry, 0, []⟩

def fail (f : Failure) (s : State) : Served := ⟨.of f.status (.json f.body), s, f.notices⟩

def reject (r : Rejection) (s : State) : Served := ⟨.of r.status (.text r.text), s, []⟩

/-- Performs an action and tells the subscribers what it changed. -/
def perform (action : Action Answer) (s : State) : Served :=
  match action.run s.fleet with
  | (.error f, fleet) => fail f { s with fleet }
  | (.ok answer, fleet) =>
    let delivery := announce answer.change s.registry
    ⟨answer.response, ⟨fleet, delivery.registry⟩, answer.notices ++ delivery.notices⟩

def openSocket (c : Context) (s : State) : Served :=
  match s.registry.connect c.session with
  | .ok registry => ⟨.of 101 .empty, { s with registry }, []⟩
  | .error _ => ⟨.of 101 .empty, s, [Registry.connectedTwice c.session]⟩

/-! ## Stages -/

def allowField (route : Route) : Header :=
  ⟨"allow", ",".intercalate (route.allowed.map Http.Verb.name)⟩

def wrongMethod (route : Route) (s : State) : Served := ⟨⟨405, [allowField route], .empty⟩, s, []⟩

def unknownPath : Failure := .custom 404 "Not Found"

def serveLogin (c : Context) (r : Request) (s : State) : Served :=
  if r.verb ∈ Route.login.allowed then
    match bodyOf BotFleet.Login r with
    | .error rejection => s.reject rejection
    | .ok login => s.perform (Login.perform c login)
  else s.wrongMethod .login

/-- Identifies the sender of a request and then looks at the work that its method
stands for, if the path knows the method.  A request without a sender is refused
before anything else in it counts. -/
def identified {α : Type} (c : Context) (route : Route) (r : Request) (work : Option α)
    (s : State) (next : Sender → α → Served) : Served :=
  match Sender.identify c s.fleet.store r.headers r.target, work with
  | .ok sender, some work => next sender work
  | .ok _, none => s.wrongMethod route
  | .error f, some _ => s.fail f
  | .error f, none =>
    let served := s.fail f
    { served with response := served.response.adding [allowField route] }

def serveSocket (c : Context) (r : Request) (s : State) : Served :=
  let work := if r.verb ∈ Route.socket.allowed then some (Http.Handshake.check r) else none
  s.identified c .socket r work fun _ handshake =>
    match handshake with
    | .error rejection => s.reject rejection
    | .ok () => s.openSocket c

def serveResource (c : Context) (resource : Resource) (r : Request) (s : State) : Served :=
  s.identified c (.resource resource) r (resource.reader? r.verb) fun sender reader =>
    match reader r with
    | .error rejection => s.reject rejection
    | .ok operation => s.perform (operation.perform c sender)

def serveRoute (c : Context) (r : Request) (s : State) : Served :=
  match Route.ofPath? r.path with
  | none => s.fail unknownPath
  | some .login => s.serveLogin c r
  | some .socket => s.serveSocket c r
  | some (.resource resource) => s.serveResource c resource r

/-- Answers a browser that asks what pages of another origin may do. -/
def preflight (r : Request) (s : State) : Served :=
  let headers := match Route.ofPath? r.path with
    | some route => [allowField route]
    | none => []
  ⟨⟨200, headers ++ Http.Origin.preflightHeaders, .empty⟩, s, []⟩

def serve (c : Context) (r : Request) (s : State) : Served :=
  let served := if r.verb = .options then s.preflight r else s.serveRoute c r
  let response := if r.verb = .head then served.response.withoutContent else served.response
  { served with response := response.adding (Http.Origin.headers c.config.corsOrigin) }

end State
end Service
end BotFleet
