import BotFleet.Registry
import BotFleet.Text.Utf8

/-
The notification socket.

A session is registered when its connection opens and removed once when it ends.
In between every text or binary message gets one reply, which goes through the
session's outbox, so replies and notices leave in the order in which they were
made.  A reply that nobody takes ends the session, as nothing can be sent on its
connection any more.
-/

namespace BotFleet
namespace Socket

structure Reply where
  frame : Frame ServerMethod
  registry : Registry
  notices : List Notice

def apply (frame : Frame ClientMethod) (id : SessionId) (r : Registry) :
    Except Registry.Fault (Bool × Registry) :=
  match frame.method with
  | .subscribe => r.subscribe id frame.body
  | .unsubscribe => r.unsubscribe id frame.body

/-- Handles a text message.  One that is no client frame, or that the registry
refuses, is sent back, and the session goes on. -/
def handle (id : SessionId) (payload : String) (r : Registry) : Reply :=
  match (Frame.decode payload : Except Frame.Fault (Frame ClientMethod)) with
  | .error _ => ⟨.bad payload, r, []⟩
  | .ok frame =>
    match apply frame id r with
    | .ok (_, r) => ⟨.ok, r, []⟩
    | .error f =>
      ⟨.bad payload, r, [.warning s!"[Socket] Session {id} frame rejected: {f.message}"]⟩

/-- What a connection brings in. -/
inductive Item where
  | text (payload : String)
  | binary (bytes : List UInt8)
  | ping
  | close (code : Option Nat)
  | lost
deriving DecidableEq

/-- The status with which an item ends a session, if it ends it. -/
def Item.status? : Item → Option CloseStatus
  | .close (some code) => some ⟨code⟩
  | .close none => some .absent
  | .lost => some .abnormal
  | _ => none

def reply? (id : SessionId) (item : Item) (r : Registry) : Option Reply :=
  match item with
  | .text payload => some (handle id payload r)
  | .binary bytes => some ⟨.bad (String.ofList (Utf8.decodeLossy bytes)), r, []⟩
  | _ => none

/-- Queues the reply to an item, if it has one, at the place of the session's outbox. -/
def answer (id : SessionId) (place : Nat) (item : Item) (r : Registry) :
    Registry × List Notice :=
  match reply? id item r with
  | some reply =>
    ({ reply.registry with
        outboxes := reply.registry.outboxes.modify place (·.push reply.frame) },
      reply.notices)
  | none => (r, [])

/-- Takes a session out of the registry. -/
def leave (id : SessionId) (status : CloseStatus) (r : Registry) : Registry × List Notice :=
  let (known, after) := r.disconnect id
  (after, Registry.disconnectNotices id status known)

/-- Whether somebody takes what is queued at a place. -/
def isTaken (place : Nat) (r : Registry) : Bool := (r.outboxes[place]?).any (·.receiving)

/-- The status with which a session ends at an item, if it ends there. -/
def ending? (id : SessionId) (place : Nat) (item : Item) (r : Registry) : Option CloseStatus :=
  match item.status? with
  | some status => some status
  | none => if (reply? id item r).isSome && !isTaken place r then some .abnormal else none

/-- Handles one item of the session whose outbox stands at `place`. -/
def step (id : SessionId) (place : Nat) (item : Item) (r : Registry) :
    Registry × List Notice :=
  let (answered, notices) := answer id place item r
  match ending? id place item r with
  | some status =>
    let (left, more) := leave id status answered
    (left, notices ++ more)
  | none => (answered, notices)

/-! ## The course of a session -/

inductive Event where
  | received (item : Item)
  /-- The subscribers of a topic are told that its listing changed. -/
  | changed (topic : String)
deriving DecidableEq

structure Course where
  registry : Registry
  notices : List Notice
  ended : Bool

namespace Course

/-- Handles an item, unless the session has ended. -/
def receive (id : SessionId) (place : Nat) (item : Item) (c : Course) : Course :=
  if c.ended then c
  else
    let (registry, notices) := step id place item c.registry
    ⟨registry, c.notices ++ notices, (ending? id place item c.registry).isSome⟩

/-- Goes on when the subscribers of a topic have been told. -/
def tell (topic : String) (c : Course) : Course :=
  let delivery := c.registry.notify topic
  { c with registry := delivery.registry, notices := c.notices ++ delivery.notices }

def next (id : SessionId) (place : Nat) (c : Course) : Event → Course
  | .received item => c.receive id place item
  | .changed topic => c.tell topic

end Course

/-- The course of the session whose outbox stands at `place`.  When nothing more
comes in, its connection has ended. -/
def run (id : SessionId) (place : Nat) (events : List Event) (r : Registry) : Course :=
  (events.foldl (Course.next id place) ⟨r, [], false⟩).receive id place .lost

end Socket
end BotFleet
