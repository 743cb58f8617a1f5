import BotFleet.Json.Basic

/-
Keys in the headers of tokens.

A header may show the key that its token was signed with.  Such a key is not
used, but a record that is no key spoils the header.  A key says of which family
it is and has the fields of that family, each once.  It may have fields that
every family has, and any others.
-/

namespace BotFleet
namespace Token
namespace Key

def isText : Json → Bool
  | .text _ => true
  | _ => false

def areTexts : Json → Bool
  | .list items => items.all isText
  | _ => false

/-- Whether a value is one of some names, as a text or as the only field of a
record whose value is null. -/
def isOneOf (names : List String) : Json → Bool
  | .text name => names.contains name
  | .record [(name, .null)] => names.contains name
  | _ => false

/-- Whether a value is a name of any kind.  In a record it may also stand for an
empty record. -/
def isName : Json → Bool
  | .text _ => true
  | .record [(_, .null)] => true
  | .record [(_, .record [])] => true
  | _ => false

/-- A field that a key has or may have, and the test of its value. -/
abbrev Part := String × (Json → Bool)

def valuesOf (fields : List (String × Json)) (name : String) : List Json :=
  fields.filterMap fun field => if field.1 == name then some field.2 else none

/-- Whether a part is there, once. -/
def has (fields : List (String × Json)) (part : Part) : Bool :=
  match valuesOf fields part.1 with
  | [value] => part.2 value
  | _ => false

/-- Whether a part is there at most once.  Null counts as nothing. -/
def mayHave (fields : List (String × Json)) (part : Part) : Bool :=
  match valuesOf fields part.1 with
  | [] => true
  | [.null] => true
  | [value] => part.2 value
  | _ => false

def general : List Part :=
  [("use", isText), ("key_ops", areTexts), ("alg", isName), ("kid", isText), ("x5u", isText),
   ("x5c", areTexts), ("x5t", isText), ("x5t#S256", isText)]

def curve : Part := ("crv", isOneOf ["P-256", "P-384", "P-521", "Ed25519"])

def families : List (List Part) :=
  [[("kty", isOneOf ["EC"]), curve, ("x", isText), ("y", isText)],
   [("kty", isOneOf ["RSA"]), ("n", isText), ("e", isText)],
   [("kty", isOneOf ["oct"]), ("k", isText)],
   [("kty", isOneOf ["OKP"]), curve, ("x", isText)]]

def isKey : Json → Bool
  | .record fields =>
    general.all (mayHave fields) && families.any fun parts => parts.all (has fields)
  | _ => false

end Key
end Token
end BotFleet
