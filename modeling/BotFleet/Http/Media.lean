import BotFleet.Http.Request

/-
Media types.

A media type is a type, a slash and a subtype, with parameters after semicolons.
What follows a plus sign in the subtype names the format that it builds on.
-/

namespace BotFleet
namespace Http
namespace Media

def isToken (c : Char) : Bool := c.isAlphanum || "!#$%&'*+-.^_`|~".toList.contains c

def isQuotable (c : Char) : Bool := c != '"' && ' ' ≤ c && c != '\x7f'

theorem length_dropWhile_le {α : Type} (p : α → Bool) (s : List α) :
    (s.dropWhile p).length ≤ s.length :=
  (List.dropWhile_suffix p).length_le

/-- The characters after a value and the semicolon that ends it, if there is
one.  There is something between quotes, if only a quote. -/
def afterValue (s : List Char) : Option (List Char) :=
  match s with
  | '"' :: c :: rest =>
    match (if c == '"' || isQuotable c then rest.dropWhile isQuotable else []) with
    | '"' :: rest =>
      match rest.dropWhile (· == ' ') with
      | [] => some []
      | ';' :: rest => some rest
      | _ => none
    | _ => none
  | _ =>
    match s.dropWhile isToken with
    | [] => some []
    | ';' :: rest => if isToken (s.headD ';') then some rest else none
    | _ => none

theorem length_afterValue {s rest : List Char} (h : afterValue s = some rest) :
    rest.length ≤ s.length := by
  unfold afterValue at h
  split at h
  · rename_i c t
    split at h
    · rename_i u heq
      have hu : u.length < t.length + 1 := by
        split at heq
        · have := length_dropWhile_le isQuotable t
          rw [heq, List.length_cons] at this
          omega
        · cases heq
      have hd := length_dropWhile_le (· == ' ') u
      split at h
      · cases h; simp
      · rename_i heq'
        cases h
        rw [heq', List.length_cons] at hd
        simp only [List.length_cons]
        omega
      · cases h
    · cases h
  · have hd := length_dropWhile_le isToken s
    split at h
    · cases h; simp
    · rename_i heq
      split at h
      · cases h
        rw [heq, List.length_cons] at hd
        omega
      · cases h
    · cases h

/-- The characters after a parameter and the semicolon that ends it, if there is
one. -/
def afterParameter (s : List Char) : Option (List Char) :=
  match s.dropWhile isToken with
  | '=' :: rest => if isToken (s.headD '=') then afterValue rest else none
  | _ => none

theorem length_afterParameter {s rest : List Char} (h : afterParameter s = some rest) :
    rest.length < s.length := by
  have hd := length_dropWhile_le isToken s
  unfold afterParameter at h
  split at h
  · rename_i heq
    rw [heq, List.length_cons] at hd
    split at h
    · have := length_afterValue h
      omega
    · cases h
  · cases h

/-- Whether the characters after a semicolon are parameters with semicolons
between them.  Nothing need follow the last semicolon. -/
def areParameters (s : List Char) : Bool :=
  if (s.dropWhile (· == ' ')).isEmpty then true
  else
    match h : afterParameter (s.dropWhile (· == ' ')) with
    | some rest =>
      have : rest.length < s.length :=
        Nat.lt_of_lt_of_le (length_afterParameter h) (length_dropWhile_le _ s)
      areParameters rest
    | none => false
termination_by s.length

/-- The characters of a subtype before its last plus sign and those after it.  A
plus sign in front belongs to the name. -/
def splitSuffix (subtype : List Char) : List Char × Option (List Char) :=
  match subtype with
  | [] => ([], none)
  | c :: rest =>
    let suffix := (rest.reverse.takeWhile (· != '+')).reverse
    if suffix.length = rest.length then (subtype, none)
    else (c :: rest.take (rest.length - suffix.length - 1), some suffix)

def json : List Char := "json".toList

/-- Whether a text is the media type of JSON or of a format that builds on it. -/
def isJson (text : String) : Bool :=
  let s := text.toList.map Char.toLower
  let kind := s.takeWhile isToken
  match s.drop kind.length with
  | '/' :: rest =>
    let subtype := rest.takeWhile isToken
    let (name, suffix) := splitSuffix subtype
    kind == "application".toList && !subtype.isEmpty && (name == json || suffix == some json) &&
      match rest.drop subtype.length with
      | [] => true
      | c :: parameters => c == ';' && areParameters parameters
  | _ => false

end Media
end Http
end BotFleet
