import BotFleet.Service.Action
import BotFleet.Token

/-
Logging in.

Whoever logs in learns nothing from a refusal: whether the user name is unknown,
the account disabled or the password wrong, the answer is the same.
-/

namespace BotFleet
namespace Service

open Json (Message)

namespace Login

/-- The one message for an unknown user, a disabled account and a wrong
password. -/
def refused : Failure := .unauthorized "Invalid username or password"

/-- The account that credentials open. -/
def open? (c : Context) (store : Store) (login : BotFleet.Login) : Except Failure User :=
  match (store.userNamed? login.username).filter (·.enabled) with
  | none => .error refused
  | some user =>
    match c.scheme.verify login.password user.password with
    | .error fault => .error (.password fault)
    | .ok true => .ok user
    | .ok false => .error refused

/-- The token and the account that a login yields. -/
def welcome (c : Context) (store : Store) (user : User) : Welcome :=
  let profile := store.profile user
  let token := Token.issue c.config.secret c.config.tokenHours c.seconds profile.id
    profile.username profile.authorities
  ⟨token, profile⟩

def perform (c : Context) (login : BotFleet.Login) : Action Answer := do
  match ← Action.read fun f => (open? c f.store login).map (welcome c f.store) with
  | .ok welcome => return .shown (Message.toJson welcome)
  | .error failure => Action.fail failure

end Login
end Service
end BotFleet
