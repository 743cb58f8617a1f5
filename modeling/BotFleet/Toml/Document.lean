import BotFleet.Toml.Literal

/-
Reading a TOML document.

A document is a sequence of lines.  Each is blank, a header, or a key with its
value; only arrays and long strings reach over several lines.  Every fault is
the same to the callers of this module, so reading either yields the entries of
the document or nothing.
-/

namespace BotFleet
namespace Toml

/-! ## Blanks, comments and line ends -/

def isSpace (c : Char) : Bool := c == ' ' || c == '\t'

def skipSpaces (s : List Char) : List Char := s.dropWhile isSpace

def newline? : List Char → Option (List Char)
  | '\n' :: s => some s
  | '\r' :: '\n' :: s => some s
  | _ => none

/-- The characters of a comment, and of a string that takes its text as it
stands. -/
def isPlain (c : Char) : Bool := c == '\t' || (0x20 ≤ c.toNat && c.toNat != 0x7F)

def skipComment : List Char → List Char
  | '#' :: s => s.dropWhile isPlain
  | s => s

def endLine? (s : List Char) : Option (List Char) :=
  match skipComment (skipSpaces s) with
  | [] => some []
  | s => newline? s

/-- Skips blanks, comments and line ends.  `fuel` bounds the number of lines. -/
def skipLines : Nat → List Char → List Char
  | 0, s => s
  | fuel + 1, s =>
    match newline? (skipComment (skipSpaces s)) with
    | some s => skipLines fuel s
    | none => skipSpaces s

/-! ## Strings -/

def hexDigits? (count : Nat) (s : List Char) : Option (Nat × List Char) :=
  let ds := s.take count
  if ds.length = count && ds.all (Digit.isOf 16) then some (Digit.number 16 ds, s.drop count) else none

def scalar? (n : Nat) : Option Char :=
  if n.isValidChar then some (Char.ofNat n) else none

def escape? : List Char → Option (Char × List Char)
  | 'b' :: s => some ('\x08', s)
  | 't' :: s => some ('\t', s)
  | 'n' :: s => some ('\n', s)
  | 'f' :: s => some ('\x0c', s)
  | 'r' :: s => some ('\r', s)
  | '"' :: s => some ('"', s)
  | '\\' :: s => some ('\\', s)
  | 'u' :: s => do
    let (n, s) ← hexDigits? 4 s
    return (← scalar? n, s)
  | 'U' :: s => do
    let (n, s) ← hexDigits? 8 s
    return (← scalar? n, s)
  | _ => none

/-- A string on one line, after its opening quote.  `fuel` bounds its length. -/
def shortString? : Nat → List Char → Option (List Char × List Char)
  | 0, _ => none
  | fuel + 1, s =>
    match s with
    | '"' :: s => some ([], s)
    | '\\' :: s => do
      let (c, s) ← escape? s
      let (cs, s) ← shortString? fuel s
      return (c :: cs, s)
    | c :: s =>
      if isPlain c then (shortString? fuel s).map fun (cs, s) => (c :: cs, s) else none
    | [] => none

/-- A string on one line that takes its text as it stands, after its opening
quote. -/
def shortLiteral? (s : List Char) : Option (List Char × List Char) :=
  let text := s.takeWhile fun c => isPlain c && c != '\''
  match s.drop text.length with
  | '\'' :: rest => some (text, rest)
  | _ => none

/-- The quotes that end a long string: three of them, and up to two more that
belong to the text. -/
def closing? (quote : Char) (s : List Char) : Option (List Char × List Char) :=
  let quotes := (s.takeWhile (· == quote)).take 5
  if quotes.length < 3 then none else some (quotes.drop 3, s.drop quotes.length)

/-- The text after a backslash at the end of a line, which continues at the next
character that is no blank. -/
def continued? (fuel : Nat) (s : List Char) : Option (List Char) :=
  let rec skip : Nat → List Char → List Char
    | 0, s => s
    | fuel + 1, s =>
      match newline? (skipSpaces s) with
      | some s => skip fuel s
      | none => skipSpaces s
  (newline? (skipSpaces s)).map (skip fuel)

/-- A string of several lines, after its opening quotes.  A line end counts as
one character. -/
def longString? : Nat → List Char → Option (List Char × List Char)
  | 0, _ => none
  | fuel + 1, s =>
    match closing? '"' s with
    | some done => some done
    | none =>
      match newline? s with
      | some s => (longString? fuel s).map fun (cs, s) => ('\n' :: cs, s)
      | none =>
        match s with
        | '\\' :: s =>
          match continued? fuel s with
          | some s => longString? fuel s
          | none => do
            let (c, s) ← escape? s
            let (cs, s) ← longString? fuel s
            return (c :: cs, s)
        | c :: s =>
          if isPlain c then (longString? fuel s).map fun (cs, s) => (c :: cs, s) else none
        | [] => none

/-- A string of several lines that takes its text as it stands. -/
def longLiteral? : Nat → List Char → Option (List Char × List Char)
  | 0, _ => none
  | fuel + 1, s =>
    match closing? '\'' s with
    | some done => some done
    | none =>
      match newline? s with
      | some s => (longLiteral? fuel s).map fun (cs, s) => ('\n' :: cs, s)
      | none =>
        match s with
        | c :: s =>
          if isPlain c then (longLiteral? fuel s).map fun (cs, s) => (c :: cs, s) else none
        | [] => none

/-- A line end right after the opening quotes is no part of the text. -/
def skipNewline (s : List Char) : List Char := (newline? s).getD s

/-! ## Keys -/

def isBareKeyCharacter (c : Char) : Bool := c.isAlphanum || c == '_' || c == '-'

/-- One part of a key. -/
def keyPart? (s : List Char) : Option (String × List Char) :=
  let result := match s with
    | '"' :: s => shortString? s.length s
    | '\'' :: s => shortLiteral? s
    | s =>
      match s.takeWhile isBareKeyCharacter with
      | [] => none
      | name => some (name, s.dropWhile isBareKeyCharacter)
  result.map fun (name, s) => (String.ofList name, s)

/-- The depth at which nesting is refused. -/
def depthLimit : Nat := 80

/-- A key of at most `fuel` parts, with the blanks around it. -/
def keyParts? : Nat → List Char → Option (List String × List Char)
  | 0, _ => none
  | fuel + 1, s => do
    let (name, s) ← keyPart? (skipSpaces s)
    match skipSpaces s with
    | '.' :: s =>
      let (names, s) ← keyParts? fuel s
      return (name :: names, s)
    | s => return ([name], s)

/-- A key: its parts but the last, and the last. -/
def key? (s : List Char) : Option (List String × String × List Char) := do
  let (names, s) ← keyParts? (depthLimit - 1) s
  let last ← names.getLast?
  return (names.dropLast, last, s)

/-! ## Values -/

def string? : List Char → Option (Node × List Char)
  | '"' :: '"' :: '"' :: s =>
    (longString? s.length (skipNewline s)).map fun (cs, s) => (.string (String.ofList cs), s)
  | '\'' :: '\'' :: '\'' :: s =>
    (longLiteral? s.length (skipNewline s)).map fun (cs, s) => (.string (String.ofList cs), s)
  | '"' :: s => (shortString? s.length s).map fun (cs, s) => (.string (String.ofList cs), s)
  | '\'' :: s => (shortLiteral? s).map fun (cs, s) => (.string (String.ofList cs), s)
  | _ => none

/-- The items of an array, from a place where an item or the closing bracket may
stand. -/
def items? (value? : List Char → Option (Node × List Char)) :
    Nat → List Char → Option (List Node × List Char)
  | 0, _ => none
  | fuel + 1, s =>
    match skipLines s.length s with
    | ']' :: s => some ([], s)
    | s => do
      let (item, s) ← value? s
      match skipLines s.length s with
      | ',' :: s =>
        let (items, s) ← items? value? fuel s
        return (item :: items, s)
      | ']' :: s => return ([item], s)
      | _ => none

def assignment? (value? : List Char → Option (Node × List Char)) (s : List Char) :
    Option (List String × String × Node × List Char) := do
  let (path, name, s) ← key? s
  match s with
  | '=' :: s =>
    let (node, s) ← value? (skipSpaces s)
    return (path, name, node, s)
  | _ => none

/-- The entries of a table in braces, from a place where a key has to stand. -/
def pairs? (value? : List Char → Option (Node × List Char)) :
    Nat → Entries → List Char → Option (Entries × List Char)
  | 0, _, _ => none
  | fuel + 1, entries, s => do
    let (path, name, node, s) ← assignment? value? s
    let entries ← Entries.assign path name node entries
    match skipSpaces s with
    | ',' :: s => pairs? value? fuel entries s
    | '}' :: s => return (entries, s)
    | _ => none

/-- A value inside at most `depth` arrays and tables in braces. -/
def value? : Nat → List Char → Option (Node × List Char)
  | 0, s =>
    match s with
    | '[' :: _ => none
    | '\x7b' :: _ => none
    | '"' :: _ => string? s
    | '\'' :: _ => string? s
    | s => literal? s
  | depth + 1, s =>
    match s with
    | '[' :: s => (items? (value? depth) s.length s).map fun (items, s) => (.array items, s)
    | '\x7b' :: s =>
      match skipSpaces s with
      | '\x7d' :: s => some (.table .inlined [], s)
      | s => (pairs? (value? depth) s.length [] s).map fun (t, s) => (.table .inlined t, s)
    | '"' :: _ => string? s
    | '\'' :: _ => string? s
    | s => literal? s

/-! ## Lines -/

structure State where
  entries : Entries
  header : List String

def header? (state : State) (s : List Char) : Option (State × List Char) :=
  match s with
  | '[' :: s => do
    let (path, name, s) ← key? s
    match s with
    | ']' :: ']' :: s =>
      let entries ← Entries.openRow path name state.entries
      return (⟨entries, path ++ [name]⟩, s)
    | _ => none
  | s => do
    let (path, name, s) ← key? s
    match s with
    | ']' :: s =>
      let entries ← Entries.openTable path name state.entries
      return (⟨entries, path ++ [name]⟩, s)
    | _ => none

/-- The part of a line before its end. -/
def line? (state : State) (s : List Char) : Option (State × List Char) :=
  match s with
  | '[' :: s => header? state s
  | '#' :: _ => some (state, s)
  | '\n' :: _ => some (state, s)
  | '\r' :: _ => some (state, s)
  | [] => some (state, s)
  | s => do
    let (path, name, node, s) ← assignment? (value? (depthLimit - 1)) s
    let entries ← Entries.assignWithin state.header path name node state.entries
    return ({ state with entries }, s)

def lines? : Nat → State → List Char → Option State
  | 0, state, s => if s.isEmpty then some state else none
  | fuel + 1, state, s =>
    if s.isEmpty then some state
    else do
      let (state, s) ← line? state (skipSpaces s)
      let s ← endLine? s
      lines? fuel state s

/-- The entries of a document.  A byte order mark in front counts for nothing. -/
def parse? (text : String) : Option Entries :=
  let s := match text.toList with
    | '\uFEFF' :: s => s
    | s => s
  (lines? (s.length + 1) ⟨[], []⟩ s).map State.entries

end Toml
end BotFleet
