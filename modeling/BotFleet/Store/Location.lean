import BotFleet.Http.Percent
import BotFleet.Text.Occurs

/-
Where a store is kept.

A location is written as a URL: the scheme, then a file or the word for a store
in memory, then options after a question mark.  The scheme may be missing, with
or without its slashes.
-/

namespace BotFleet
namespace Store

structure Location where
  /-- The file.  A store without one is kept in memory. -/
  file : Option String
  /-- Whether a store in memory is shared by all who open it. -/
  shared : Bool
  /-- Whether nothing may be written. -/
  readOnly : Bool
  /-- Whether the file is taken never to change. -/
  immutable : Bool
deriving DecidableEq, Repr

namespace Location

/-- A text without any repetition of another at its front. -/
def trimStart (front : List Char) (s : List Char) : List Char :=
  if h : front ≠ [] ∧ front.isPrefixOf s then
    have : s.length - front.length < s.length := by
      have hp := List.IsPrefix.length_le (List.isPrefixOf_iff_prefix.mp h.2)
      have hl := List.length_pos_iff.mpr h.1
      omega
    trimStart front (s.drop front.length)
  else s
termination_by s.length

theorem trimStart_append {front : List Char} (h : front ≠ []) (s : List Char) :
    trimStart front (front ++ s) = trimStart front s := by
  rw [trimStart, dif_pos ⟨h, List.isPrefixOf_iff_prefix.mpr (List.prefix_append front s)⟩,
    List.drop_left]

theorem trimStart_of_not_prefix {front s : List Char} (h : ¬front.isPrefixOf s) :
    trimStart front s = s := by
  rw [trimStart, dif_neg fun hp => h hp.2]

def memoryName : String := ":memory:"

/-- The ways of reaching files that can be asked for by name. -/
def fileSystems : List String := ["unix", "unix-none", "unix-dotfile", "unix-excl", "memdb"]

/-- The location with an option applied, if there is such an option. -/
def withOption (l : Location) (option : String × String) : Option Location :=
  match option with
  | ("mode", "ro") => some { l with readOnly := true }
  | ("mode", "rw") => some l
  | ("mode", "rwc") => some l
  | ("mode", "memory") => some { l with file := none, shared := true }
  | ("cache", "private") => some { l with shared := false }
  | ("cache", "shared") => some { l with shared := true }
  | ("immutable", value) =>
    if value == "true" || value == "1" then some { l with immutable := true }
    else if value == "false" || value == "0" then some { l with immutable := false }
    else none
  | ("vfs", value) => if fileSystems.contains value then some l else none
  | _ => none

def ofName? (name : String) : Option Location :=
  if name == memoryName then some ⟨none, true, false, false⟩
  else (Http.Percent.decode? name).map fun file => ⟨some file, false, false, false⟩

/-- Whether all who open the location find the same store.  In memory that is not
shared, and in a file without a name, each has a store of their own, which does
no harm where there is only one to open it. -/
def isCommon (l : Location) (alone : Bool) : Bool :=
  alone || match l.file with
    | none => l.shared
    | some file => file != "" && file != memoryName

def isNamed (l : Location) : Bool := l.file.all fun file => !file.toList.contains '\x00'

/-- Reads the URL of a location.  A store is opened by one alone if the word for
a store in memory is anywhere in its URL. -/
def ofUrl? (url : String) : Option Location := do
  let s := trimStart "sqlite:".toList (trimStart "sqlite://".toList url.toList)
  let name := s.takeWhile (· != '?')
  let start ← ofName? (String.ofList name)
  let location ←
    (Http.Percent.fields (String.ofList (s.drop (name.length + 1)))).foldlM withOption start
  let alone := Text.occursIn memoryName.toList url.toList
  if location.isNamed && location.isCommon alone then some location else none

/-- The directories that lead to a file, from the root or from the current one,
and its name. -/
def parts (path : String) : List String :=
  (if path.toList.head? == some '/' then ["/"] else []) ++
    ((path.toList.splitOn '/').filter fun part => !part.isEmpty && part != ['.']).map String.ofList

end Location
end Store
end BotFleet
