import BotFleet.Http.Response

/-
Pages of another origin.

Browsers let the pages of one other origin use the service, with credentials.
They ask beforehand with the method OPTIONS, and every answer says so again.
-/

namespace BotFleet
namespace Http
namespace Origin

def headers (origin : String) : List Header :=
  [⟨"access-control-allow-origin", origin⟩,
   ⟨"access-control-allow-credentials", "true"⟩,
   ⟨"vary", "origin, access-control-request-method, access-control-request-headers"⟩]

def methods : List Verb := [.get, .post, .put, .delete, .options]

def preflightHeaders : List Header :=
  [⟨"access-control-allow-methods", ",".intercalate (methods.map Verb.name)⟩,
   ⟨"access-control-allow-headers", "authorization,content-type"⟩]

end Origin
end Http
end BotFleet
