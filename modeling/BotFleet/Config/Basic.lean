import BotFleet.Json.Message
import BotFleet.Notice

/-
The configuration and the layers it is made of.

A layer gives values to some of the fields.  Laid over a configuration it
replaces those and no others, so of several layers the last one that mentions a
field decides it.
-/

namespace BotFleet

open Json (Message)

structure Config where
  bindAddress : String
  databaseUrl : String
  secret : String
  /-- How many hours a session token lives. -/
  tokenHours : Tally
  daemonUrl : String
  corsOrigin : String
  hashCost : Cost
deriving DecidableEq

namespace Config

/-- The key that stands in for a missing one.  Anyone can sign with it. -/
def builtInSecret : String := "change-me"

def default : Config where
  bindAddress := "127.0.0.1:8080"
  databaseUrl := "sqlite://yamba.db"
  secret := builtInSecret
  tokenHours := ⟨24, by decide⟩
  daemonUrl := "http://127.0.0.1:1337"
  corsOrigin := "http://localhost:3000"
  hashCost := ⟨12, by decide⟩

structure Layer where
  bindAddress : Option String
  databaseUrl : Option String
  secret : Option String
  tokenHours : Option Tally
  daemonUrl : Option String
  corsOrigin : Option String
  hashCost : Option Cost
deriving DecidableEq

/-- The layer that mentions no field. -/
def Layer.empty : Layer := ⟨none, none, none, none, none, none, none⟩

def overlay (c : Config) (l : Layer) : Config where
  bindAddress := l.bindAddress.getD c.bindAddress
  databaseUrl := l.databaseUrl.getD c.databaseUrl
  secret := l.secret.getD c.secret
  tokenHours := l.tokenHours.getD c.tokenHours
  daemonUrl := l.daemonUrl.getD c.daemonUrl
  corsOrigin := l.corsOrigin.getD c.corsOrigin
  hashCost := l.hashCost.getD c.hashCost

instance : Message Config where
  shape := .record <|
    .cons "bind_address" .noted .text <|
    .cons "database_url" .noted .text <|
    .cons "jwt_secret" .noted .text <|
    .cons "token_ttl_hours" .noted .tally <|
    .cons "daemon_url" .noted .text <|
    .cons "cors_origin" .noted .text <|
    .cons "bcrypt_cost" .noted .cost .nil
  toValue c :=
    (some c.bindAddress, some c.databaseUrl, some c.secret, some c.tokenHours,
      some c.daemonUrl, some c.corsOrigin, some c.hashCost, ())
  ofValue :=
    fun (bindAddress, databaseUrl, secret, tokenHours, daemonUrl, corsOrigin, hashCost, _) =>
      default.overlay
        { bindAddress, databaseUrl, secret, tokenHours, daemonUrl, corsOrigin, hashCost }

inductive Fault where
  | invalidUrl (url : String)
  | invalidValue (key message : String)
  | missingValue (key : String)
  /-- The file is not in the format of configuration files, for a reason that the parser
  gives. -/
  | unparsable (detail : String)
  | unreadable (path detail : String)
deriving DecidableEq, Repr

def Fault.message : Fault → String
  | .invalidUrl url => s!"invalid URL: {url}"
  | .invalidValue key message => s!"invalid value for {key}: {message}"
  | .missingValue key => s!"missing value: {key}"
  | .unparsable detail => s!"failed to parse config file: {detail}"
  | .unreadable path detail => s!"failed to read config file {path}: {detail}"

/-- The URL of the daemon without the slashes at its end. -/
def daemonBase (c : Config) : String :=
  String.ofList (c.daemonUrl.toList.reverse.dropWhile (· == '/')).reverse

end Config
end BotFleet
