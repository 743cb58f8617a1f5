import BotFleet.Json.Message
import BotFleet.Token.Key

/-
Headers of tokens.

A header names the method of the signature.  What else a header may say has no
effect, but it is read with care: a header that says it in the wrong form is no
header.
-/

namespace BotFleet
namespace Token

open Json (Message)

/-- The signature methods that a header may name. -/
def algorithms : List String :=
  ["HS256", "HS384", "HS512", "ES256", "ES384", "RS256", "RS384", "RS512", "PS256", "PS384",
   "PS512", "EdDSA"]

/-- The method in use, the keyed hash of `Sha256.keyed`. -/
def keyedHash : { n : String // n ∈ algorithms } := ⟨"HS256", by decide⟩

structure Header where
  kind : Option String
  algorithm : { n : String // n ∈ algorithms }

/-- Besides the kind and the algorithm a header may name keys and certificates,
and how its token was made.  Of fields with other names only texts are
admitted. -/
instance : Message Header where
  shape := .record <|
    .cons "typ" .noted (.optional .text) <|
    .cons "alg" .refused (.choice algorithms) <|
    .cons "cty" .noted (.optional .text) <|
    .cons "jku" .noted (.optional .text) <|
    .cons "jwk" .noted (.optional (.checked Key.isKey)) <|
    .cons "kid" .noted (.optional .text) <|
    .cons "x5u" .noted (.optional .text) <|
    .cons "x5c" .noted (.optional (.list .text)) <|
    .cons "x5t" .noted (.optional .text) <|
    .cons "x5t#S256" .noted (.optional .text) <|
    .cons "crit" .noted (.optional (.list .text)) <|
    .cons "enc" .noted (.optional .text) <|
    .cons "zip" .noted (.optional .text) <|
    .cons "url" .noted (.optional .text) <|
    .cons "nonce" .noted (.optional .text) <|
    .others .text
  toValue h :=
    (some h.kind, h.algorithm, none, none, none, none, none, none, none, none, none, none, none,
     none, none, ())
  ofValue := fun (kind, algorithm, _) => { kind := kind.getD none, algorithm }

def Header.standard : Header := ⟨some "JWT", keyedHash⟩

end Token
end BotFleet
