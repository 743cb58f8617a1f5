import BotFleet.Daemon.Request
import BotFleet.Notice

/-
The link to the daemon and the instances it runs.

An exchange with the daemon has one of three outcomes: it is answered, it is
dropped without an answer, or it never reaches the daemon at all.  Where there is
no answer the client says why.

An instance counts as running from the moment a start is acknowledged to the
moment a stop is, so a failed exchange leaves the record as it was.
-/

namespace BotFleet
namespace Daemon

open Json (Message)

inductive Outcome where
  | answered (status : Nat) (body : String)
  /-- The request arrives and the connection is closed without an answer. -/
  | dropped (detail : String)
  /-- The request does not arrive. -/
  | unsent (detail : String)
deriving DecidableEq, Repr

/-- Nobody listens where the daemon should be. -/
def Outcome.refused : Outcome := .unsent "error sending request"

structure Exchange where
  url : String
  body : Json

/-- The link: what becomes of the next requests, what becomes of those after
them, and which requests have arrived. -/
structure Link where
  base : String
  pending : List Outcome
  otherwise : Outcome
  exchanges : List Exchange

inductive Fault where
  | unreachable (detail : String)
  /-- The daemon answered that it would not, in so many words if it gave any. -/
  | status (code : Nat) (detail : Option String)
deriving DecidableEq, Repr

def Fault.message : Fault → String
  | .unreachable detail => s!"Daemon unreachable: {detail}"
  | .status code none => s!"Daemon returned {code}"
  | .status code (some detail) => s!"Daemon returned {code}: {detail}"

def pathOf (url : String) : String :=
  let host := (url.toList.dropWhile (· != '/')).drop 2
  String.ofList (host.dropWhile (· != '/'))

def isSuccess (status : Nat) : Bool := 200 ≤ status && status ≤ 299

def detailOf (body : String) : Option String :=
  match (Message.read body : Except Json.Fault Refusal) with
  | .ok refusal => refusal.detail
  | .error _ => none

namespace Link

def next (l : Link) : Outcome := l.pending.headD l.otherwise

def record (l : Link) (path : String) (body : Json) : Link :=
  match l.next with
  | .unsent _ => { l with pending := l.pending.tail }
  | _ => { l with
      pending := l.pending.tail
      exchanges := l.exchanges ++ [⟨l.base ++ path, body⟩] }

/-- Sends a request for a path.  Only an answer of success acknowledges it. -/
def post (l : Link) (path : String) (body : Json) : Except Fault Unit × Link :=
  let result : Except Fault Unit := match l.next with
    | .answered status text =>
      if isSuccess status then .ok () else .error (.status status (detailOf text))
    | .dropped detail => .error (.unreachable detail)
    | .unsent detail => .error (.unreachable detail)
  (result, l.record path body)

end Link

/-- The instances that are running, by increasing identifier, and the link. -/
structure Control where
  running : List Id
  link : Link

namespace Control

def isRunning (c : Control) (id : Id) : Bool := c.running.contains id

def insert (id : Id) : List Id → List Id
  | [] => [id]
  | a :: rest => if id < a then id :: a :: rest else a :: insert id rest

/-- Starts an instance, unless it is running already.  Says whether it was
started. -/
def start (i : Instance) (c : Control) : Except Fault Bool × Control :=
  if c.isRunning i.id then (.ok false, c)
  else
    let request := LoadRequest.ofInstance i initialVolume
    match c.link.post "/instance/start" (Message.toJson request) with
    | (.ok (), link) => (.ok true, ⟨insert i.id c.running, link⟩)
    | (.error f, link) => (.error f, { c with link })

/-- Stops an instance, unless it is not running.  Says whether it was stopped. -/
def stop (id : Id) (c : Control) : Except Fault Bool × Control :=
  if !c.isRunning id then (.ok false, c)
  else
    match c.link.post "/instance/stop" (Message.toJson (StopRequest.mk id)) with
    | (.ok (), link) => (.ok true, ⟨c.running.filter (· != id), link⟩)
    | (.error f, link) => (.error f, { c with link })

structure Autostart where
  control : Control
  started : Nat
  notices : List Notice

/-- Starts instances one after another.  One that fails does not keep the others
from being tried. -/
def autostart : List Instance → Control → Autostart
  | [], c => ⟨c, 0, []⟩
  | i :: rest, c =>
    match start i c with
    | (.ok true, c) =>
      let result := autostart rest c
      { result with started := result.started + 1 }
    | (.ok false, c) => autostart rest c
    | (.error f, c) =>
      let result := autostart rest c
      let notice := .warning s!"[Instances] Autostart of {i.id.val} failed: {f.message}"
      { result with notices := notice :: result.notices }

end Control
end Daemon
end BotFleet
