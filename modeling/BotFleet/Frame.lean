/-
Frames of the notification socket.

A frame is a method token and a body, parted by an empty line:

    SUBSCRIBE

    /api/instance

Clients and the server each have a closed set of methods.  Only the first empty
line parts a frame, so a body may hold empty lines of its own and `decode`
undoes `encode` for every body.
-/

namespace BotFleet

/-- A closed set of methods, each with its token. -/
class Method (μ : Type) where
  token : μ → String
  all : List μ

namespace Method

variable {μ : Type} [Method μ]

/-- The method with a token.  Letter case counts. -/
def ofToken? (t : String) : Option μ := (all (μ := μ)).find? fun m => token m == t

end Method

/-- What a client may ask for. -/
inductive ClientMethod where
  /-- Add the topic in the body to the session's topics. -/
  | subscribe
  /-- Remove the topic in the body from the session's topics. -/
  | unsubscribe
deriving DecidableEq, Repr

/-- What the server may say. -/
inductive ServerMethod where
  | ok
  | bad
  | update
deriving DecidableEq, Repr

instance : Method ClientMethod where
  token
    | .subscribe => "SUBSCRIBE"
    | .unsubscribe => "DESUB"
  all := [.subscribe, .unsubscribe]

instance : Method ServerMethod where
  token
    | .ok => "OK"
    | .bad => "BAD"
    | .update => "UPDATE"
  all := [.ok, .bad, .update]

structure Frame (μ : Type) where
  method : μ
  body : String
deriving DecidableEq, Repr

namespace Frame

variable {μ : Type}

inductive Fault where
  | empty
  | noSeparator
  | unknownMethod (token : String)
deriving DecidableEq, Repr

def Fault.message : Fault → String
  | .empty => "empty payload"
  | .noSeparator => "missing method separator"
  | .unknownMethod token => s!"unknown method '{token}'"

/-- The characters before and after the first empty line. -/
def splitAtSeparator : List Char → Option (List Char × List Char)
  | '\n' :: '\n' :: rest => some ([], rest)
  | c :: rest => (splitAtSeparator rest).map fun (before, after) => (c :: before, after)
  | [] => none

def decode [Method μ] (payload : String) : Except Fault (Frame μ) :=
  if payload.isEmpty then .error .empty
  else
    match splitAtSeparator payload.toList with
    | none => .error .noSeparator
    | some (before, after) =>
      match Method.ofToken? (String.ofList before) with
      | none => .error (.unknownMethod (String.ofList before))
      | some method => .ok ⟨method, String.ofList after⟩

def encode [Method μ] (frame : Frame μ) : String :=
  Method.token frame.method ++ "\n\n" ++ frame.body

def subscribe (topic : String) : Frame ClientMethod := ⟨.subscribe, topic⟩
def unsubscribe (topic : String) : Frame ClientMethod := ⟨.unsubscribe, topic⟩

def ok : Frame ServerMethod := ⟨.ok, ""⟩

/-- The answer to a payload that could not be handled.  It returns the payload,
so the client can tell which one. -/
def bad (payload : String) : Frame ServerMethod := ⟨.bad, payload⟩

def update (topic : String) : Frame ServerMethod := ⟨.update, topic⟩

end Frame
end BotFleet
