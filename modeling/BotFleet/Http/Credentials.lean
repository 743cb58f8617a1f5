import BotFleet.Http.Percent
import BotFleet.Http.Request

/-
Where a request carries its token.

The token stands in the authorization field.  Browsers cannot set that field
when they open a socket, so a request without it may name the token in its query
instead.
-/

namespace BotFleet
namespace Http
namespace Credentials

/-- What stands in front of a token in the authorization field. -/
def scheme : String := "Bearer "

def ofField (value : String) : Option String :=
  if scheme.toList.isPrefixOf value.toList then
    some (String.ofList (value.toList.drop scheme.toList.length))
  else none

/-- The token in a query, if it is named exactly once and not empty. -/
def ofQuery (query : String) : Option String :=
  match (Percent.fields query).filter fun field => field.1 == "token" with
  | [(_, token)] => if token.isEmpty then none else some token
  | _ => none

/-- The token that a request carries.  An authorization field that can be read
decides alone. -/
def token? (headers : List Header) (target : Target) : Option String :=
  match Header.text? headers "authorization" with
  | some value => ofField value
  | none => target.query.bind ofQuery

end Credentials
end Http
end BotFleet
