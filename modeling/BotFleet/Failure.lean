import BotFleet.Config.Basic
import BotFleet.Daemon.Link
import BotFleet.Frame
import BotFleet.Password
import BotFleet.Store.Fault
import BotFleet.Validation

/-
Failures and what becomes of them.

A failure has three faces: the status of the answer, the message in it, and the
line in the log.  What goes wrong inside the service is told to the log only;
its answer says no more than that something went wrong.
-/

namespace BotFleet

inductive Failure where
  | custom (status : Nat) (message : String)
  | notFound (resource id : String)
  | conflict (message : String)
  | unauthorized (message : String)
  | invalid (violation : Violation)
  | undecodable (fault : Frame.Fault)
  | unserializable (message : String)
  | store (fault : Store.Fault)
  | migration (detail : String)
  | daemon (fault : Daemon.Fault)
  | config (fault : Config.Fault)
  | password (fault : Password.Fault)
  | token (detail : String)
deriving DecidableEq, Repr

namespace Failure

def internalError : String := "Internal server error"

def status : Failure → Nat
  | .custom status _ => status
  | .notFound .. => 404
  | .conflict _ => 409
  | .unauthorized _ => 401
  | .invalid _ => 400
  | .undecodable _ => 400
  | .unserializable _ => 500
  | .store .duplicate => 409
  | .store .dangling => 404
  | .store .rowMissing => 404
  | .store (.broken _) => 500
  | .daemon _ => 502
  | .token _ => 401
  | .migration _ => 500
  | .config _ => 500
  | .password _ => 500

def undecodableText (fault : Frame.Fault) : String := s!"Decode error: {fault.message}"

def unserializableText (message : String) : String := s!"Serialization error: {message}"

def message : Failure → String
  | .custom _ message => message
  | .notFound resource id => s!"{resource} {id} not found"
  | .conflict message => message
  | .unauthorized message => message
  | .invalid v => v.text
  | .undecodable fault => undecodableText fault
  | .unserializable message => unserializableText message
  | .store .duplicate => "Resource already exists"
  | .store .dangling => "Referenced resource not found"
  | .store .rowMissing => "Referenced resource not found"
  | .store (.broken _) => internalError
  | .daemon fault => fault.message
  | .token _ => "Invalid or expired token"
  | .migration _ => internalError
  | .config _ => internalError
  | .password _ => internalError

/-- The text for the operator, with everything that is known. -/
def display : Failure → String
  | .custom _ message => s!"Handler error: {message}"
  | .notFound resource id => s!"{resource} {id} not found"
  | .conflict message => s!"Conflict: {message}"
  | .unauthorized message => s!"Unauthorized: {message}"
  | .invalid v => v.text
  | .undecodable fault => undecodableText fault
  | .unserializable message => unserializableText message
  | .store fault => s!"Database error: {fault.detail}"
  | .migration detail => s!"Migration error: {detail}"
  | .daemon fault => fault.message
  | .config fault => fault.message
  | .password fault => s!"Password error: {fault.message}"
  | .token detail => s!"Token error: {detail}"

def reason : Nat → String
  | 500 => "Internal Server Error"
  | 501 => "Not Implemented"
  | 502 => "Bad Gateway"
  | 503 => "Service Unavailable"
  | 504 => "Gateway Timeout"
  | 505 => "HTTP Version Not Supported"
  | 506 => "Variant Also Negotiates"
  | 507 => "Insufficient Storage"
  | 508 => "Loop Detected"
  | 510 => "Not Extended"
  | 511 => "Network Authentication Required"
  | _ => "<unknown status code>"

def isServerError (status : Nat) : Bool := 500 ≤ status && status ≤ 599

def body (f : Failure) : Json :=
  .record [("error", .text f.message), ("status", .int f.status)]

/-- What the log says about a failure that is answered.  Only the service's own
failures are logged. -/
def notices (f : Failure) : List Notice :=
  if isServerError f.status then
    let code := f.status
    [.error s!"[Http] {f.display} ({code} {reason f.status})"]
  else []

end Failure
end BotFleet
