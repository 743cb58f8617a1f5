import BotFleet.Config.Check
import BotFleet.Text.Blank
import BotFleet.Toml.Document

/-
Where the layers come from.

A file gives the lower layer and the environment the upper one.  Numbers in the
environment are text, and blanks around them do not count.

What the parser of files says against a text that it does not take is the
parser's own affair: `explain` has its words for each text.
-/

namespace BotFleet
namespace Config

abbrev Environment := String → Option String

def numberVariable (lo hi : Int) (key : String) (env : Environment) :
    Except Fault (Option (Ranged lo hi)) :=
  match env key with
  | none => .ok none
  | some text =>
    match Numeral.read lo hi (Text.trim text.toList) with
    | .ok n => .ok (Ranged.ofInt? lo hi n)
    | .error f => .error (.invalidValue key f.message)

def ofEnvironment (env : Environment) : Except Fault Layer := do
  let tokenHours ← numberVariable _ _ "YAMBA_TOKEN_TTL_HOURS" env
  let hashCost ← numberVariable _ _ "YAMBA_BCRYPT_COST" env
  return {
    bindAddress := env "YAMBA_BIND"
    databaseUrl := env "DATABASE_URL"
    secret := env "JWT_SECRET"
    tokenHours
    daemonUrl := env "YAMBA_DAEMON_URL"
    corsOrigin := env "YAMBA_CORS_ORIGIN"
    hashCost }

def withEnvironment (c : Config) (env : Environment) : Except Fault Config :=
  (ofEnvironment env).map c.overlay

/-! ## Files -/

/-- The text under a key of a file, if there is one.  Fails with the given fault if there is
something else. -/
def textEntry (fault : Fault) (key : String) (file : Toml.Entries) :
    Except Fault (Option String) :=
  match List.lookup key file with
  | none => .ok none
  | some (.string s) => .ok (some s)
  | some _ => .error fault

def numberEntry (fault : Fault) (lo hi : Int) (key : String) (file : Toml.Entries) :
    Except Fault (Option (Ranged lo hi)) :=
  match List.lookup key file with
  | none => .ok none
  | some (.integer n) =>
    match Ranged.ofInt? lo hi n with
    | some n => .ok (some n)
    | none => .error fault
  | some _ => .error fault

/-- The layer that the entries of a file give.  Keys that are no fields are
ignored. -/
def ofEntries (fault : Fault) (file : Toml.Entries) : Except Fault Layer := do
  return {
    bindAddress := ← textEntry fault "bind_address" file
    databaseUrl := ← textEntry fault "database_url" file
    secret := ← textEntry fault "jwt_secret" file
    tokenHours := ← numberEntry fault _ _ "token_ttl_hours" file
    daemonUrl := ← textEntry fault "daemon_url" file
    corsOrigin := ← textEntry fault "cors_origin" file
    hashCost := ← numberEntry fault _ _ "bcrypt_cost" file }

def ofFile (explain : String → String) (text : String) : Except Fault Config :=
  let fault := Fault.unparsable (explain text)
  match Toml.parse? text with
  | none => .error fault
  | some file => (ofEntries fault file).map default.overlay

def fileVariable : String := "YAMBA_CONFIG"

/-- What is found at the place of the file. -/
inductive File where
  | unset
  | contents (text : String)
  | unreadable (path detail : String)

def load (explain : String → String) (file : File) (env : Environment) :
    Except Fault Config := do
  let base ← match file with
    | .unset => .ok default
    | .contents text => ofFile explain text
    | .unreadable path detail => .error (.unreadable path detail)
  let c ← base.withEnvironment env
  validate c
  return c

end Config
end BotFleet
