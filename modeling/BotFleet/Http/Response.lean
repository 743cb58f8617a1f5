import BotFleet.Http.Request
import BotFleet.Json.Basic

/-
Responses.
-/

namespace BotFleet
namespace Http

inductive Content where
  | empty
  | text (text : String)
  | json (value : Json)

namespace Content

def headers : Content → List Header
  | empty => []
  | text _ => [⟨"content-type", "text/plain; charset=utf-8"⟩]
  | json _ => [⟨"content-type", "application/json"⟩]

end Content

structure Response where
  status : Nat
  headers : List Header
  content : Content

namespace Response

def of (status : Nat) (content : Content) : Response := ⟨status, content.headers, content⟩

def adding (headers : List Header) (r : Response) : Response :=
  { r with headers := r.headers ++ headers }

/-- The response without its content, whose kind the header still tells. -/
def withoutContent (r : Response) : Response := { r with content := .empty }

def isFailure (r : Response) : Bool := 400 ≤ r.status

end Response
end Http
end BotFleet
