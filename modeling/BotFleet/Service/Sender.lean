import BotFleet.Http.Credentials
import BotFleet.Service.Action
import BotFleet.Token

/-
Who sends a request.

A token is only as good as the account it names: the account has to exist and to
be enabled at the time of the request.  The token's user name is ignored in
favour of the stored one, while its authorities are those at the time of login.
-/

namespace BotFleet
namespace Service

open Json (Message)

structure Sender where
  id : Id
  username : String
  authorities : List String
deriving DecidableEq, Repr

namespace Sender

def noCredentials : String := "Missing or malformed credentials"
def badToken : String := "Invalid or expired token"
def noAccount : String := "Account not available"

def ofToken (c : Context) (store : Store) (token : String) : Except Failure Sender :=
  match Token.verify c.config.secret c.seconds token with
  | .error _ => .error (.unauthorized badToken)
  | .ok claims =>
    match claims.userId? with
    | none => .error (.unauthorized badToken)
    | some id =>
      match (store.user? id).filter (·.enabled) with
      | none => .error (.unauthorized noAccount)
      | some user => .ok ⟨user.id, user.username, claims.authorities⟩

def identify (c : Context) (store : Store) (headers : List Http.Header) (target : Http.Target) :
    Except Failure Sender :=
  match Http.Credentials.token? headers target with
  | none => .error (.unauthorized noCredentials)
  | some token => ofToken c store token

/-- Shows the sender's own account, with the authorities that it holds now. -/
def showMe (sender : Sender) : Action Answer := do
  let user ← Action.find (·.store.user? sender.id) (missing "User" sender.id)
  let profile ← Action.read fun f => f.store.profile user
  return .shown (Message.toJson profile)

end Sender

end Service
end BotFleet
