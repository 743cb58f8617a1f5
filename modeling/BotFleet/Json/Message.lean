import BotFleet.Json.Shape

/-
Messages with a JSON form.

A message is described by a shape and by two maps between the message and the
values of the shape.  Everything that is sent or received goes through these, so
what is read back from a message's text follows from the shape alone.
-/

namespace BotFleet
namespace Json

abbrev Shape.id : Shape := .whole (-9223372036854775808) 9223372036854775807
abbrev Shape.tally : Shape := .whole 0 18446744073709551615
abbrev Shape.cost : Shape := .whole 0 4294967295
abbrev Shape.port : Shape := .whole 0 65535
abbrev Shape.channel : Shape := .whole (-2147483648) 2147483647

class Message (α : Type) where
  shape : Shape
  toValue : α → shape.Value
  ofValue : shape.Value → α

namespace Message

variable {α : Type} [Message α]

def toJson (a : α) : Json := (shape α).toJson (toValue a)

def write (a : α) : String := (toJson a).toText

def readSource (s : Source) : Except Fault α := ((shape α).reader.parseSource s).map ofValue

def read (text : String) : Except Fault α := readSource (.ofChars text.toList)

def ofJson? (j : Json) : Option α := (read j.toText).toOption

end Message
end Json
end BotFleet
