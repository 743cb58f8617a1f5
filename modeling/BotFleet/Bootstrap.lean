import BotFleet.Failure
import BotFleet.Store.Users

/-
The first account.

Nobody can log in to an empty store, so the service makes sure on every start
that there is an account with identifier zero.  A new one gets a random
password, which is written to the log once and nowhere else.
-/

namespace BotFleet
namespace Bootstrap

def rootId : Id := .zero
def rootName : String := "root"

/-- The length of the random password. -/
def passwordLength : Nat := 20

structure Chance where
  /-- Picks the letters of the password. -/
  draws : List Nat
  salt : List UInt8

def announcement (password : String) : Notice :=
  .warning s!"[Auth] Created user '{rootName}' with password: {password}"

/-- Makes sure of the first account.  Yields the password of a new one. -/
def ensureRoot (scheme : Password.Scheme) (cost : Cost) (now : Instant) (chance : Chance)
    (s : Store) : Except Failure (Option String × Store) :=
  if (s.user? rootId).isSome then .ok (none, s)
  else
    let password := Password.ofDraws (chance.draws.take passwordLength)
    match scheme.hash cost chance.salt password with
    | .error f => .error (.password f)
    | .ok hash =>
      match s.createUserWithId rootId rootName hash Store.adminAuthority.id now with
      | .error f => .error (.store f)
      | .ok (_, s) => .ok (some password, s)

end Bootstrap
end BotFleet
