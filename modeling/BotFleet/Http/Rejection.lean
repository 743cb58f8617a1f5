/-
Requests that cannot be understood.

A rejected request never reaches the operation that it asks for.  Rejections are
answered in plain text.
-/

namespace BotFleet
namespace Http

inductive Rejection where
  /-- The bytes of a parameter in the path spell no text. -/
  | undecodable (parameter : String)
  /-- The only parameter of a path is no identifier. -/
  | notId (value : String)
  /-- One of several parameters of a path is no identifier. -/
  | notIdAt (index : Nat) (value : String)
  /-- The body is not announced as JSON. -/
  | notJson
  | tooLong
  /-- The body is no JSON. -/
  | malformed
  /-- The body is JSON, but not what the operation needs. -/
  | mismatched
  | notGet
  | noUpgrade
  | noWebSocket
  | noKey
  | wrongVersion
  | notUpgradable
deriving DecidableEq, Repr

namespace Rejection

def status : Rejection → Nat
  | undecodable _ | notId _ | notIdAt .. => 400
  | notJson => 415
  | tooLong => 413
  | malformed => 400
  | mismatched => 422
  | notGet => 405
  | noUpgrade | noWebSocket | noKey | wrongVersion => 400
  | notUpgradable => 426

def text : Rejection → String
  | undecodable parameter => s!"Invalid URL: Invalid UTF-8 in `{parameter}`"
  | notId value => s!"Invalid URL: Cannot parse `{value}` to a `i64`"
  | notIdAt index value =>
    s!"Invalid URL: Cannot parse value at index {index} with value `{value}` to a `i64`"
  | notJson => "Expected request with `Content-Type: application/json`"
  | tooLong => "Failed to buffer the request body: length limit exceeded"
  | malformed => "Failed to parse the request body as JSON"
  | mismatched => "Failed to deserialize the JSON body into the target type"
  | notGet => "Request method must be `GET`"
  | noUpgrade => "Connection header did not include 'upgrade'"
  | noWebSocket => "`Upgrade` header did not include 'websocket'"
  | noKey => "`Sec-WebSocket-Key` header missing"
  | wrongVersion => "`Sec-WebSocket-Version` header did not include '13'"
  | notUpgradable => "WebSocket request couldn't be upgraded since no upgrade state was present"

end Rejection
end Http
end BotFleet
