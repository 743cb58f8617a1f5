import BotFleet.Text.Blank

/-
The rules for user names, passwords and display names.

Lengths are counted in bytes.  A password longer than 72 bytes is refused
because the hash would ignore the bytes beyond.
-/

namespace BotFleet

structure Violation where
  field : String
  message : String
deriving DecidableEq, Repr

namespace Violation

def text (v : Violation) : String := s!"Validation error in field '{v.field}': {v.message}"

end Violation

namespace Validation

def emptyField : String := "must not be empty"
def longField : String := "must be at most 255 characters"
def longPassword : String := "must be at most 72 bytes"
def strayCharacter : String := "may only contain letters, digits, '_', '-' and '.'"
def noPort : String := "Port must be between 1 and 65535"

def isNameCharacter (c : Char) : Bool := c.isAlphanum || c == '_' || c == '-' || c == '.'

def username (s : String) : Except Violation Unit :=
  if s.isEmpty then .error ⟨"username", emptyField⟩
  else if 255 < s.utf8ByteSize then .error ⟨"username", longField⟩
  else if s.toList.all isNameCharacter then .ok ()
  else .error ⟨"username", strayCharacter⟩

def password (s : String) : Except Violation Unit :=
  if s.isEmpty then .error ⟨"password", emptyField⟩
  else if 72 < s.utf8ByteSize then .error ⟨"password", longPassword⟩
  else .ok ()

/-- A display name shows something and is not too long. -/
def name (field : String) (s : String) : Except Violation Unit :=
  if (Text.trim s.toList).isEmpty then .error ⟨field, emptyField⟩
  else if 255 < s.utf8ByteSize then .error ⟨field, longField⟩
  else .ok ()

end Validation
end BotFleet
