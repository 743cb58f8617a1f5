import BotFleet.Json.Loose
import BotFleet.Json.Message

/-
Conditions on the use of a token.

The claims of a token may say from when on it counts, who issued it and whom it
is for.  These three are read apart from the other claims, and a value that has
no meaning stands for nothing.  Each may be there once, and only an object has
them.
-/

namespace BotFleet
namespace Token

open Json (Reader Source Step)

structure Conditions where
  start : Bool
  issuer : Bool
  /-- Whether the audience, if there is one, has a meaning. -/
  audience : Option Bool
deriving DecidableEq, Repr

namespace Conditions

/-- A point in time.  An empty list or record can be passed over like a value
without a meaning, but what one with something in it holds cannot. -/
def startBody (c : Char) (s : Source) : Step Unit :=
  if c == '[' || c == '{' then
    match Json.closesAtOnce (if c == '[' then ']' else '}') s with
    | some rest => .ok ((), rest)
    | none => .error .mismatched
  else (Reader.looseValue none c s).map fun (_, rest) => ((), rest)

theorem length_startBody {c : Char} {s rest : Source} {u : Unit}
    (h : startBody c s = .ok (u, rest)) : rest.length ≤ s.length := by
  unfold startBody at h
  split at h
  · split at h
    · rename_i hc
      cases h
      exact Nat.le_of_lt (Json.length_closesAtOnce hc)
    · cases h
  · obtain ⟨⟨j, rest'⟩, hl, he⟩ := Json.map_eq_ok h
    cases he
    exact Reader.length_looseValue hl

/-- Whether a value names one or more parties. -/
def namesParties : Json → Bool
  | .text _ => true
  | .list items => items.all fun
    | .text _ => true
    | _ => false
  | _ => false

def parties : Reader Bool := (Reader.loose Reader.depthLimit).map fun j => j.any namesParties

def slot (name : String) (c : Conditions) : Reader.Slot Conditions :=
  if name == "nbf" then
    if c.start then .taken
    else .free ((Reader.ofFirst startBody length_startBody).map fun _ => { c with start := true })
  else if name == "iss" then
    if c.issuer then .taken else .free (parties.map fun _ => { c with issuer := true })
  else if name == "aud" then
    if c.audience.isSome then .taken
    else .free (parties.map fun named => { c with audience := some named })
  else .unknown

def objectFirst (c : Char) (s : Source) : Step Conditions :=
  if c == '{' then Reader.objectBody slot ⟨false, false, none⟩ s else .error .mismatched

theorem length_objectFirst {c : Char} {s rest : Source} {a : Conditions}
    (h : objectFirst c s = .ok (a, rest)) : rest.length ≤ s.length := by
  unfold objectFirst at h
  split at h
  · exact Reader.length_objectBody h
  · cases h

def reader : Reader Conditions := Reader.ofFirst objectFirst length_objectFirst

def read (s : Source) : Except Json.Fault Conditions := reader.parseSource s

def hasAudience (c : Conditions) : Bool := c.audience == some true

end Conditions
end Token
end BotFleet
