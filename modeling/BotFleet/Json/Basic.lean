import BotFleet.Json.Number

/-
JSON values and their text.

`render` writes a value without blanks.  A field keeps the place it was given,
so the text of a value is determined by the value alone.
-/

namespace BotFleet

inductive Json where
  | null
  | flag (b : Bool)
  | int (n : Int)
  | real (x : Double)
  | text (s : String)
  | list (items : List Json)
  | record (fields : List (String × Json))

namespace Json

instance : Inhabited Json := ⟨.null⟩

/-- The hexadecimal digit of a number below sixteen. -/
def hexDigit (n : Nat) : Char := Nat.digitChar n

def escape (c : Char) : List Char :=
  if c == '"' then ['\\', '"']
  else if c == '\\' then ['\\', '\\']
  else if c == '\n' then ['\\', 'n']
  else if c == '\r' then ['\\', 'r']
  else if c == '\t' then ['\\', 't']
  else if c == '\x08' then ['\\', 'b']
  else if c == '\x0c' then ['\\', 'f']
  else if c.toNat < 0x20 then
    ['\\', 'u', '0', '0', hexDigit (c.toNat / 16), hexDigit (c.toNat % 16)]
  else [c]

def quote (s : List Char) : List Char := '"' :: (s.flatMap escape ++ ['"'])

mutual

def render : Json → List Char
  | .null => ['n', 'u', 'l', 'l']
  | .flag true => ['t', 'r', 'u', 'e']
  | .flag false => ['f', 'a', 'l', 's', 'e']
  | .int n => Numeral.whole n
  | .real x => (Number.ofDouble x).text
  | .text s => quote s.toList
  | .list items => '[' :: renderItems items
  | .record fields => '{' :: renderFields fields

/-- The text of a list after its opening bracket. -/
def renderItems : List Json → List Char
  | [] => [']']
  | item :: items => render item ++ renderMoreItems items

def renderMoreItems : List Json → List Char
  | [] => [']']
  | item :: items => ',' :: (render item ++ renderMoreItems items)

/-- The text of a record after its opening brace. -/
def renderFields : List (String × Json) → List Char
  | [] => ['}']
  | (name, value) :: fields =>
    quote name.toList ++ ':' :: (render value ++ renderMoreFields fields)

def renderMoreFields : List (String × Json) → List Char
  | [] => ['}']
  | (name, value) :: fields =>
    ',' :: (quote name.toList ++ ':' :: (render value ++ renderMoreFields fields))

end

def toText (j : Json) : String := String.ofList j.render

def field? (name : String) : Json → Option Json
  | .record fields => fields.lookup name
  | _ => none

end Json
end BotFleet
