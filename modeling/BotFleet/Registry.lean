import BotFleet.Frame
import BotFleet.Notice
import BotFleet.Topic

/-
Live sessions and what is queued for them.

A session is registered when its connection is accepted, with no topics and an
outbox of its own, and stays registered until it is disconnected.  Outboxes are
kept in the order in which they were accepted and outlive their sessions, so
everything that was ever queued can still be read.
-/

namespace BotFleet

abbrev SessionId := String

structure CloseStatus where
  code : Nat
deriving DecidableEq, Repr

namespace CloseStatus

def normal : CloseStatus := ⟨1000⟩
def goingAway : CloseStatus := ⟨1001⟩
/-- A close frame without a code. -/
def absent : CloseStatus := ⟨1005⟩
/-- The connection ended without a close frame. -/
def abnormal : CloseStatus := ⟨1006⟩

def isExpected (s : CloseStatus) : Bool := s == normal || s == goingAway

def text (s : CloseStatus) : String := toString s.code

end CloseStatus

/-- What is queued for a connection, and whether anyone still takes it. -/
structure Outbox where
  frames : List (Frame ServerMethod)
  receiving : Bool
deriving DecidableEq

namespace Outbox

def fresh : Outbox := ⟨[], true⟩

/-- Queues a frame, unless nobody takes it any more. -/
def push (frame : Frame ServerMethod) (o : Outbox) : Outbox :=
  if o.receiving then { o with frames := o.frames ++ [frame] } else o

def drop (o : Outbox) : Outbox := { o with receiving := false }

end Outbox

structure Session where
  id : SessionId
  topics : List String
  outbox : Nat
deriving DecidableEq

structure Registry where
  sessions : List Session
  outboxes : List Outbox
deriving DecidableEq

namespace Registry

inductive Fault where
  | alreadyConnected (id : SessionId)
  | notConnected (id : SessionId)
deriving DecidableEq, Repr

def Fault.message : Fault → String
  | .alreadyConnected id => s!"session {id} is already registered"
  | .notConnected id => s!"session {id} is not registered"

def empty : Registry := ⟨[], []⟩

def find? (r : Registry) (id : SessionId) : Option Session :=
  r.sessions.find? fun s => s.id == id

def isConnected (r : Registry) (id : SessionId) : Bool := (r.find? id).isSome

def count (r : Registry) : Nat := r.sessions.length

def subscribers (r : Registry) (topic : String) : List Session :=
  r.sessions.filter fun s => s.topics.contains topic

/-- Registers a session with an outbox of its own and no topics. -/
def connect (id : SessionId) (r : Registry) : Except Fault Registry :=
  if r.isConnected id then .error (.alreadyConnected id)
  else .ok {
    sessions := r.sessions ++ [⟨id, [], r.outboxes.length⟩]
    outboxes := r.outboxes ++ [.fresh] }

/-- Removes a session and its topics.  Says whether it was registered. -/
def disconnect (id : SessionId) (r : Registry) : Bool × Registry :=
  (r.isConnected id, { r with sessions := r.sessions.filter fun s => s.id != id })

/-- Gives a registered session the topics that `change` makes of its own. -/
def setTopics (id : SessionId) (change : List String → List String) (r : Registry) : Registry :=
  { r with sessions := r.sessions.map fun s =>
      if s.id == id then { s with topics := change s.topics } else s }

/-- Adds a topic to a session.  Says whether it is new to it. -/
def subscribe (id : SessionId) (topic : String) (r : Registry) : Except Fault (Bool × Registry) :=
  match r.find? id with
  | none => .error (.notConnected id)
  | some s =>
    if s.topics.contains topic then .ok (false, r)
    else .ok (true, r.setTopics id fun topics => topics ++ [topic])

/-- Removes a topic from a session.  Says whether it had been there. -/
def unsubscribe (id : SessionId) (topic : String) (r : Registry) :
    Except Fault (Bool × Registry) :=
  match r.find? id with
  | none => .error (.notConnected id)
  | some s =>
    if s.topics.contains topic then
      .ok (true, r.setTopics id fun topics => topics.filter (· != topic))
    else .ok (false, r)

/-! ## Outboxes -/

def outbox? (r : Registry) (s : Session) : Option Outbox := r.outboxes[s.outbox]?

def isReceiving (r : Registry) (s : Session) : Bool :=
  (r.outbox? s).any (·.receiving)

def push (s : Session) (frame : Frame ServerMethod) (r : Registry) : Registry :=
  { r with outboxes := r.outboxes.modify s.outbox (·.push frame) }

/-- Nobody takes what is queued in an outbox from now on. -/
def dropOutbox (place : Nat) (r : Registry) : Registry :=
  { r with outboxes := r.outboxes.modify place Outbox.drop }

/-! ## Notification -/

/-- What came of telling the subscribers of a topic. -/
structure Delivery where
  registry : Registry
  /-- How many outboxes took the frame. -/
  delivered : Nat
  notices : List Notice

def goneNotice (topic : String) (s : Session) : Notice :=
  .warning s!"[Notify] Session {s.id} is gone, skipping UPDATE for {topic}"

/-- Tells every subscriber of a topic that its listing changed.  A subscriber
whose outbox nobody takes from is passed over. -/
def notify (topic : String) (r : Registry) : Delivery :=
  let live := (r.subscribers topic).filter r.isReceiving
  let gone := (r.subscribers topic).filter fun s => !r.isReceiving s
  { registry := live.foldl (fun r s => r.push s (.update topic)) r
    delivered := live.length
    notices := gone.map (goneNotice topic) }

/-- Tells the subscribers of every listing that a change makes stale. -/
def notifyAll (topics : List Topic) (r : Registry) : Delivery :=
  topics.foldl
    (fun d t =>
      let next := d.registry.notify t.path
      ⟨next.registry, d.delivered + next.delivered, d.notices ++ next.notices⟩)
    ⟨r, 0, []⟩

def notifyChange (change : Change) (r : Registry) : Delivery := r.notifyAll change.topics

/-! ## Notices -/

def connectedTwice (id : SessionId) : Notice :=
  .error s!"[Registry] Session {id} connected twice"

/-- What the log says about a disconnect. -/
def disconnectNotices (id : SessionId) (status : CloseStatus) (known : Bool) : List Notice :=
  if !known then [.warning s!"[Registry] Disconnect for unknown session {id}"]
  else if status.isExpected then []
  else [.warning s!"[Registry] Session {id} closed abnormally with status {status.text}"]

end Registry
end BotFleet
