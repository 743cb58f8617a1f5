/-
Requests.

A request is what remains of one when it has been read off the wire: a method, a
target, header fields in the order in which they came, and a body.
-/

namespace BotFleet
namespace Http

inductive Verb where
  | get
  | head
  | post
  | put
  | delete
  | options
  | other (name : String)
deriving DecidableEq, Repr

namespace Verb

def name : Verb → String
  | get => "GET"
  | head => "HEAD"
  | post => "POST"
  | put => "PUT"
  | delete => "DELETE"
  | options => "OPTIONS"
  | other name => name

def known : List Verb := [get, head, post, put, delete, options]

/-- The method with a name.  Names are case-sensitive. -/
def ofName (name : String) : Verb := (known.find? fun v => v.name == name).getD (other name)

end Verb

structure Header where
  name : String
  value : String
deriving DecidableEq, Repr

namespace Header

def named (name : String) (h : Header) : Bool :=
  h.name.toList.map Char.toLower == name.toList.map Char.toLower

/-- Whether a value consists of printable characters and tabs. -/
def isReadable (value : String) : Bool :=
  value.toList.all fun c => c == '\t' || (' ' ≤ c && c ≤ '~')

/-- Whether a text may be sent as a value, which control characters other than
the tab may not. -/
def isValue (text : String) : Bool :=
  text.toList.all fun c => c == '\t' || (' ' ≤ c && c != '\x7f')

def value? (headers : List Header) (name : String) : Option String :=
  (headers.find? (named name)).map (·.value)

def text? (headers : List Header) (name : String) : Option String :=
  (value? headers name).filter isReadable

end Header

structure Target where
  /-- The path as it was sent, escapes and all. -/
  path : String
  query : Option String
deriving DecidableEq, Repr

namespace Target

/-- The characters after the scheme and the host of a target that has them. -/
def withoutHost (s : List Char) : List Char :=
  match s.dropWhile (· != ':') with
  | ':' :: '/' :: '/' :: rest => rest.dropWhile fun c => c != '/' && c != '?'
  | _ => s

/-- Reads a target.  A fragment is dropped. -/
def ofText (text : String) : Target :=
  let s := text.toList.takeWhile (· != '#')
  let s := if s.head? = some '/' then s else withoutHost s
  let path := s.takeWhile (· != '?')
  { path := if path.isEmpty then "/" else String.ofList path
    query :=
      match s.drop path.length with
      | _ :: query => some (String.ofList query)
      | [] => none }

end Target

structure Request where
  verb : Verb
  target : Target
  headers : List Header
  body : String
  /-- Whether the connection can be turned into a socket. -/
  upgradable : Bool
deriving DecidableEq, Repr

namespace Request

def path (r : Request) : String := r.target.path

def value? (r : Request) (name : String) : Option String := Header.value? r.headers name

def text? (r : Request) (name : String) : Option String := Header.text? r.headers name

end Request
end Http
end BotFleet
