import BotFleet.Crypto.Base64
import BotFleet.Crypto.Sha256
import BotFleet.Token.Conditions
import BotFleet.Token.Header

/-
Session tokens.

A token is a header, claims and a signature, each as letters that need no escape
in a URL, with points between.  The signature is the keyed hash of the header
and the claims as they stand in the token, so nothing in them can be altered
without the key.
-/

namespace BotFleet
namespace Token

open Json (Message)

structure Claims where
  subject : String
  username : String
  authorities : List String
  /-- When the token expires, in seconds since the first of January 1970. -/
  expires : Tally
  issued : Tally
deriving DecidableEq

instance : Message Claims where
  shape := .record <|
    .cons "sub" .refused .text <|
    .cons "username" .refused .text <|
    .cons "authorities" .noted (.list .text) <|
    .cons "exp" .refused .tally <|
    .cons "iat" .refused .tally .nil
  toValue c := (c.subject, c.username, some c.authorities, c.expires, c.issued, ())
  ofValue := fun (subject, username, authorities, expires, issued, _) =>
    { subject, username, authorities := authorities.getD [], expires, issued }

def Claims.userId? (c : Claims) : Option Id :=
  Numeral.read? (-9223372036854775808) 9223372036854775807 c.subject.toList

inductive Fault where
  /-- It has fewer than three parts. -/
  | notThreeParts
  /-- A part is not made of the letters it should be. -/
  | notLetters
  /-- The header or the claims are not what they should be. -/
  | notJson
  | wrongAlgorithm
  | wrongSignature
  | expired
  /-- It is meant for someone else. -/
  | wrongAudience
deriving DecidableEq, Repr

/-! ## Issuing -/

def letters (text : String) : List Char := Base64.encode .url (Utf8.encode text.toList)

def sign (secret : String) (signed : List Char) : List UInt8 :=
  Sha256.keyed (Utf8.encode secret.toList) (Utf8.encode signed)

def encode (secret : String) (claims : Claims) : String :=
  let signed := letters (Message.write Header.standard) ++ '.' :: letters (Message.write claims)
  String.ofList (signed ++ '.' :: Base64.encode .url (sign secret signed))

/-- The greatest point in time that a token can name. -/
def endOfTime : Int := 18446744073709551615

/-- When a token expires that is issued at `now` and lives for some hours.  Both
the life and the point in time stop short of overflow. -/
def expiry (now hours : Tally) : Tally :=
  .clamp 0 endOfTime (by decide) (now.val + min endOfTime (hours.val * 3600))

def claimsFor (hours : Tally) (now : Tally) (id : Id) (username : String)
    (authorities : List String) : Claims where
  subject := Numeral.ofInt id.val
  username := username
  authorities := authorities
  expires := expiry now hours
  issued := now

def issue (secret : String) (hours now : Tally) (id : Id) (username : String)
    (authorities : List String) : String :=
  encode secret (claimsFor hours now id username authorities)

/-! ## Verifying -/

def splitAtLastPoint (s : List Char) : Option (List Char × List Char) :=
  let tail := s.reverse.takeWhile (· != '.')
  match s.reverse.drop tail.length with
  | _ :: before => some (before.reverse, tail.reverse)
  | [] => none

def sourceOf (part : List Char) : Except Fault Json.Source :=
  match Base64.decode? .url part with
  | none => .error .notLetters
  | some bytes => .ok (.ofBytes bytes)

def messageOf (α : Type) [Message α] (part : List Char) : Except Fault α :=
  match sourceOf part with
  | .error f => .error f
  | .ok s => ((Message.readSource s : Except Json.Fault α)).mapError fun _ => .notJson

def conditionsOf (part : List Char) : Except Fault Conditions :=
  match sourceOf part with
  | .error f => .error f
  | .ok s => (Conditions.read s).mapError fun _ => .notJson

/-- How many seconds a token is still accepted after it has expired. -/
def leeway : Int := 60

/-- The claims of a token that was signed with the key, has not expired and names
no audience. -/
def verify (secret : String) (now : Tally) (token : String) : Except Fault Claims :=
  match splitAtLastPoint token.toList with
  | none => .error .notThreeParts
  | some (signed, signature) =>
    match splitAtLastPoint signed with
    | none => .error .notThreeParts
    | some (header, payload) =>
      match messageOf Header header with
      | .error f => .error f
      | .ok header =>
        if header.algorithm ≠ keyedHash then .error .wrongAlgorithm
        else
          match Base64.decode? .url signature with
          | none => .error .notLetters
          | some signature =>
            if signature != sign secret signed then .error .wrongSignature
            else
              match messageOf Claims payload with
              | .error f => .error f
              | .ok claims =>
                match conditionsOf payload with
                | .error f => .error f
                | .ok conditions =>
                  if claims.expires.val < now.val - leeway then .error .expired
                  else if conditions.hasAudience then .error .wrongAudience
                  else .ok claims

end Token
end BotFleet
