import BotFleet.Config.Address
import BotFleet.Config.Basic

/-
Which configurations are accepted.

The fields are checked one after another, and the first that fails is the one
reported.
-/

namespace BotFleet
namespace Config

/-- The longest life of a session token, one year. -/
def maxTokenHours : Nat := 24 * 365

def isHttpUrl (url : String) : Bool :=
  let s := url.toList
  let after (scheme : List Char) : Bool := scheme.isPrefixOf s && scheme.length < s.length
  after "http://".toList || after "https://".toList

def validate (c : Config) : Except Fault Unit :=
  if !Address.isSocketAddress c.bindAddress then
    .error (.invalidValue "bind_address" "invalid socket address syntax")
  else if c.databaseUrl.isEmpty then .error (.missingValue "database_url")
  else if c.secret.isEmpty then .error (.missingValue "jwt_secret")
  else if !(1 ≤ c.tokenHours.val && c.tokenHours.val ≤ maxTokenHours) then
    .error (.invalidValue "token_ttl_hours" s!"must be between 1 and {maxTokenHours}")
  else if !isHttpUrl c.daemonUrl then .error (.invalidUrl c.daemonUrl)
  else if !isHttpUrl c.corsOrigin then .error (.invalidUrl c.corsOrigin)
  else if !(4 ≤ c.hashCost.val && c.hashCost.val ≤ 31) then
    .error (.invalidValue "bcrypt_cost" "must be between 4 and 31")
  else .ok ()

/-- What an operator should know about a configuration that was accepted. -/
def notices (c : Config) : List Notice :=
  if c.secret == builtInSecret then
    [.warning "[Config] JWT_SECRET is not set, using the built-in development secret"]
  else []

/-- The configuration of a layer over the built-in values, once it has been
checked. -/
def build (l : Layer) : Except Fault Config :=
  let c := default.overlay l
  (validate c).map fun _ => c

end Config
end BotFleet
