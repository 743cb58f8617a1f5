/-
Tables of a TOML document.

A table remembers how it came to be, because that decides who may add to it.  A
table that a dotted key made takes further dotted keys; one that a deeper header
implied may still be given a header of its own; one that was stated, or written
in braces, is closed to both.
-/

namespace BotFleet
namespace Toml

/-- How a table came to be. -/
inductive Form where
  /-- By a header. -/
  | stated
  /-- By the header of a table inside it. -/
  | implied
  /-- By a dotted key. -/
  | dotted
  /-- By braces. -/
  | inlined
deriving DecidableEq, Repr

inductive Node where
  | string (s : String)
  | integer (n : Int)
  | float (literal : String)
  | boolean (b : Bool)
  | moment (literal : String)
  | array (items : List Node)
  | table (form : Form) (entries : List (String × Node))
  /-- The tables of an array, the last one first. -/
  | tables (rows : List (List (String × Node)))

abbrev Entries := List (String × Node)

namespace Entries

def put (name : String) (node : Node) : Entries → Entries
  | [] => [(name, node)]
  | (k, v) :: rest => if k == name then (k, node) :: rest else (k, v) :: put name node rest

/-- Applies `change` to the table at the end of a path.  Tables on the way that
do not exist yet are made, by the path of a header or by a dotted key. -/
def descend (made : Form) (change : Form → Entries → Option Entries) (form : Form) :
    List String → Entries → Option Entries
  | [], entries => change form entries
  | name :: path, entries =>
    match List.lookup name entries with
    | none => (descend made change made path []).map fun t => put name (.table made t) entries
    | some (.table inner t) =>
      let shut := match made, inner with
        | _, .inlined => true
        | .dotted, .stated => true
        | _, _ => false
      if shut then none
      else (descend made change inner path t).map fun t => put name (.table inner t) entries
    | some (.tables (row :: rows)) =>
      (descend made change .stated path row).map fun t => put name (.tables (t :: rows)) entries
    | some _ => none

/-- Adds a value under a dotted key to the table at hand, which the last part of
the key must not name yet.  A dotted key adds only to tables that dotted keys
made. -/
def assign (path : List String) (name : String) (node : Node) (entries : Entries) :
    Option Entries :=
  descend .dotted (fun form t =>
    if !path.isEmpty && form != .dotted then none
    else if (List.lookup name t).isSome then none
    else some (put name node t)) .stated path entries

def openTable (path : List String) (name : String) (entries : Entries) : Option Entries :=
  descend .implied (fun _ t =>
    match List.lookup name t with
    | none => some (put name (.table .stated []) t)
    | some (.table .implied inner) => some (put name (.table .stated inner) t)
    | some _ => none) .stated path entries

def openRow (path : List String) (name : String) (entries : Entries) : Option Entries :=
  descend .implied (fun _ t =>
    match List.lookup name t with
    | none => some (put name (.tables [[]]) t)
    | some (.tables rows) => some (put name (.tables ([] :: rows)) t)
    | some _ => none) .stated path entries

/-- Adds a value under a dotted key to the table of the last header. -/
def assignWithin (header path : List String) (name : String) (node : Node)
    (entries : Entries) : Option Entries :=
  descend .implied (fun _ t => assign path name node t) .stated header entries

end Entries
end Toml
end BotFleet
