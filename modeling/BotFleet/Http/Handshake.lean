import BotFleet.Http.Rejection
import BotFleet.Http.Request
import BotFleet.Text.Occurs

/-
The handshake that opens a socket.
-/

namespace BotFleet
namespace Http
namespace Handshake

def anyLower (test : List Char → Bool) (value : Option String) : Bool :=
  value.any fun v => test (v.toList.map Char.toLower)

/-- Checks a handshake.  The first thing wrong with it is the one reported. -/
def check (r : Request) : Except Rejection Unit :=
  if r.verb ≠ .get then .error .notGet
  else if !anyLower (Text.occursIn "upgrade".toList) (r.value? "connection") then .error .noUpgrade
  else if !anyLower (· == "websocket".toList) (r.value? "upgrade") then .error .noWebSocket
  else if (r.value? "sec-websocket-key").isNone then .error .noKey
  else if r.value? "sec-websocket-version" ≠ some "13" then .error .wrongVersion
  else if !r.upgradable then .error .notUpgradable
  else .ok ()

end Handshake
end Http
end BotFleet
