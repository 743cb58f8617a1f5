import BotFleet.Json.Lexical

/-
Readers of JSON text.

A reader takes one value off the front of a text.  It leaves strictly less than
it was given, which is what ends the loops over lists and records.  A reader
that meets a value of another kind reads a scalar to its end before it reports
the mismatch, so that a malformed scalar is reported as malformed; a list or a
record is reported at its opening bracket.
-/

namespace BotFleet
namespace Json

/-- Takes one value off the front of a text. -/
structure Reader (α : Type) where
  run : Source → Step α
  shorter : ∀ {s a rest}, run s = .ok (a, rest) → rest.length < s.length

def refuse (c : Char) (s : Source) : Fault :=
  let after {α : Type} (result : Except Fault α) : Fault :=
    match result with
    | .error f => f
    | .ok _ => .mismatched
  if c == 'n' then after (word ['u', 'l', 'l'] s)
  else if c == 't' then after (word ['r', 'u', 'e'] s)
  else if c == 'f' then after (word ['a', 'l', 's', 'e'] s)
  else if c == '"' then after (characters .exact s)
  else if startsNumber c then after (number .exact (some c :: s))
  else if c == '[' || c == '{' then .mismatched
  else .malformed

def mark (c : Char) (s : Source) : Except Fault Source :=
  match skipBlanks s with
  | [] => .error .cutShort
  | u :: rest => if u == some c then .ok rest else .error .malformed

theorem length_mark {c : Char} {s rest : Source} (h : mark c s = .ok rest) :
    rest.length < s.length := by
  have hs := length_skipBlanks s
  unfold mark at h
  split at h
  · cases h
  · rename_i heq
    rw [heq, List.length_cons] at hs
    split at h
    · cases h; omega
    · cases h

def key (care : Care) (s : Source) : Step String :=
  match mark '"' s with
  | .error f => .error f
  | .ok rest => (characters care rest).map fun (cs, rest) => (String.ofList cs, rest)

theorem length_key {care : Care} {s rest : Source} {name : String}
    (h : key care s = .ok (name, rest)) : rest.length < s.length := by
  unfold key at h
  split at h
  · cases h
  · rename_i hm
    obtain ⟨⟨cs, rest'⟩, hc, he⟩ := map_eq_ok h
    cases he
    have := length_mark hm
    have := length_characters hc
    omega

/-- What stands after an item of a list or a field of a record: the closing
bracket, or a comma and more. -/
inductive Follow where
  | closed (rest : Source)
  | more (rest : Source)

def follow (close : Char) (s : Source) : Except Fault Follow :=
  match skipBlanks s with
  | [] => .error .cutShort
  | u :: rest =>
    if u == some close then .ok (.closed rest)
    else if u == some ',' then .ok (.more rest)
    else .error .malformed

theorem length_follow {close : Char} {s rest : Source}
    (h : follow close s = .ok (.closed rest) ∨ follow close s = .ok (.more rest)) :
    rest.length < s.length := by
  have hs := length_skipBlanks s
  unfold follow at h
  split at h
  · rcases h with h | h <;> cases h
  · rename_i heq
    rw [heq, List.length_cons] at hs
    split at h
    · rcases h with h | h
      · cases h; omega
      · cases h
    · split at h
      · rcases h with h | h
        · cases h
        · cases h; omega
      · rcases h with h | h <;> cases h

/-- Whether a list or record whose opening bracket has been read is empty, and
what follows its closing bracket. -/
def closesAtOnce (close : Char) (s : Source) : Option Source :=
  match skipBlanks s with
  | u :: rest => if u == some close then some rest else none
  | [] => none

theorem length_closesAtOnce {close : Char} {s rest : Source}
    (h : closesAtOnce close s = some rest) : rest.length < s.length := by
  have hs := length_skipBlanks s
  unfold closesAtOnce at h
  split at h
  · rename_i heq
    rw [heq, List.length_cons] at hs
    split at h
    · cases h; omega
    · cases h
  · cases h

namespace Reader

variable {α β : Type}

/-- Hands the first character after blanks, and what follows it, to `body`. -/
def runFirst (body : Char → Source → Step α) (s : Source) : Step α :=
  match skipBlanks s with
  | [] => .error .cutShort
  | none :: _ => .error .malformed
  | some c :: rest => body c rest

theorem length_runFirst {body : Char → Source → Step α}
    (h : ∀ {c s a rest}, body c s = .ok (a, rest) → rest.length ≤ s.length)
    {s rest : Source} {a : α} (hr : runFirst body s = .ok (a, rest)) :
    rest.length < s.length := by
  have hs := length_skipBlanks s
  unfold runFirst at hr
  split at hr
  · cases hr
  · cases hr
  · rename_i heq
    rw [heq, List.length_cons] at hs
    have := h hr
    omega

/-- A reader that is told the first character after blanks and what follows. -/
def ofFirst (body : Char → Source → Step α)
    (h : ∀ {c s a rest}, body c s = .ok (a, rest) → rest.length ≤ s.length) : Reader α where
  run := runFirst body
  shorter := length_runFirst h

def map (f : α → β) (r : Reader α) : Reader β where
  run s := (r.run s).map fun (a, rest) => (f a, rest)
  shorter := by
    intro s b rest h
    obtain ⟨⟨a, rest'⟩, hr, he⟩ := map_eq_ok h
    cases he
    exact r.shorter hr

/-- A reader whose value has to pass a further test. -/
def filterMap (f : α → Option β) (r : Reader α) : Reader β where
  run s := match r.run s with
    | .error fault => .error fault
    | .ok (a, rest) => match f a with
      | some b => .ok (b, rest)
      | none => .error .mismatched
  shorter := by
    intro s b rest h
    split at h
    · cases h
    · rename_i hr
      split at h
      · cases h; exact r.shorter hr
      · cases h

/-! ## Scalars -/

def flagBody (c : Char) (s : Source) : Step Bool :=
  if c == 't' then (word ['r', 'u', 'e'] s).map fun rest => (true, rest)
  else if c == 'f' then (word ['a', 'l', 's', 'e'] s).map fun rest => (false, rest)
  else .error (refuse c s)

def flag : Reader Bool := ofFirst flagBody (by
  intro c s a rest h
  unfold flagBody at h
  split at h
  · obtain ⟨rest', hw, he⟩ := map_eq_ok h
    cases he; exact length_word hw
  · split at h
    · obtain ⟨rest', hw, he⟩ := map_eq_ok h
      cases he; exact length_word hw
    · cases h)

def textBody (c : Char) (s : Source) : Step String :=
  if c == '"' then (characters .exact s).map fun (cs, rest) => (String.ofList cs, rest)
  else .error (refuse c s)

def text : Reader String := ofFirst textBody (by
  intro c s a rest h
  unfold textBody at h
  split at h
  · obtain ⟨⟨cs, rest'⟩, hc, he⟩ := map_eq_ok h
    cases he; exact Nat.le_of_lt (length_characters hc)
  · cases h)

def numberBody (c : Char) (s : Source) : Step Number :=
  if startsNumber c then number .exact (some c :: s) else .error (refuse c s)

def anyNumber : Reader Number := ofFirst numberBody (by
  intro c s a rest h
  unfold numberBody at h
  split at h
  · exact Nat.le_of_lt_succ (length_number h)
  · cases h)

/-- A whole number of a range.  A number with a point or an exponent is not
one. -/
def whole (lo hi : Int) : Reader (Ranged lo hi) :=
  anyNumber.filterMap fun n => n.toInt?.bind (Ranged.ofInt? lo hi)

def real : Reader Double := anyNumber.filterMap Number.value?

/-! ## Values that may be absent -/

def optional (r : Reader α) : Reader (Option α) where
  run s := match skipBlanks s with
    | some 'n' :: rest => (word ['u', 'l', 'l'] rest).map fun rest => (none, rest)
    | _ => (r.run s).map fun (a, rest) => (some a, rest)
  shorter := by
    intro s a rest h
    have hs := length_skipBlanks s
    split at h
    · rename_i heq
      obtain ⟨rest', hw, he⟩ := map_eq_ok h
      cases he
      have := length_word hw
      rw [heq, List.length_cons] at hs
      omega
    · obtain ⟨⟨a', rest'⟩, hr, he⟩ := map_eq_ok h
      cases he
      exact r.shorter hr

/-! ## Lists and records of like values -/

def items (r : Reader α) (s : Source) : Step (List α) :=
  match hr : r.run s with
  | .error f => .error f
  | .ok (a, t) =>
    match hf : follow ']' t with
    | .error f => .error f
    | .ok (.closed rest) => .ok ([a], rest)
    | .ok (.more rest) =>
      have : rest.length < s.length := Nat.lt_trans (length_follow (.inr hf)) (r.shorter hr)
      (items r rest).map fun (as, rest) => (a :: as, rest)
termination_by s.length

theorem length_items {r : Reader α} {s rest : Source} {as : List α}
    (h : items r s = .ok (as, rest)) : rest.length < s.length := by
  fun_induction items r s generalizing as rest with
  | case1 => cases h
  | case2 => cases h
  | case3 s a t hr rest hf =>
    cases h
    have := r.shorter hr
    have := length_follow (.inl hf)
    omega
  | case4 s a t hr rest' hf _ ih =>
    obtain ⟨⟨as', rest''⟩, hi, he⟩ := map_eq_ok h
    cases he
    have := r.shorter hr
    have := length_follow (.inr hf)
    have := ih hi
    omega

def listBody (r : Reader α) (c : Char) (s : Source) : Step (List α) :=
  if c == '[' then
    match closesAtOnce ']' s with
    | some rest => .ok ([], rest)
    | none => items r s
  else .error (refuse c s)

theorem length_listBody {r : Reader α} {c : Char} {s rest : Source} {as : List α}
    (h : listBody r c s = .ok (as, rest)) : rest.length ≤ s.length := by
  unfold listBody at h
  split at h
  · split at h
    · rename_i hc
      cases h
      exact Nat.le_of_lt (length_closesAtOnce hc)
    · exact Nat.le_of_lt (length_items h)
  · cases h

def list (r : Reader α) : Reader (List α) := ofFirst (listBody r) length_listBody

def field (care : Care) (r : Reader α) (s : Source) : Step (String × α) :=
  match key care s with
  | .error f => .error f
  | .ok (name, s) =>
    match mark ':' s with
    | .error f => .error f
    | .ok s => (r.run s).map fun (a, rest) => ((name, a), rest)

theorem length_field {care : Care} {r : Reader α} {s rest : Source} {a : String × α}
    (h : field care r s = .ok (a, rest)) : rest.length < s.length := by
  unfold field at h
  split at h
  · cases h
  · rename_i hk
    split at h
    · cases h
    · rename_i hm
      obtain ⟨⟨a', rest'⟩, hr, he⟩ := map_eq_ok h
      cases he
      have := length_key hk
      have := length_mark hm
      have := r.shorter hr
      omega

def fields (care : Care) (r : Reader α) (s : Source) : Step (List (String × α)) :=
  match hr : field care r s with
  | .error f => .error f
  | .ok (a, t) =>
    match hf : follow '}' t with
    | .error f => .error f
    | .ok (.closed rest) => .ok ([a], rest)
    | .ok (.more rest) =>
      have : rest.length < s.length := Nat.lt_trans (length_follow (.inr hf)) (length_field hr)
      (fields care r rest).map fun (as, rest) => (a :: as, rest)
termination_by s.length

theorem length_fields {care : Care} {r : Reader α} {s rest : Source}
    {as : List (String × α)} (h : fields care r s = .ok (as, rest)) :
    rest.length < s.length := by
  fun_induction fields care r s generalizing as rest with
  | case1 => cases h
  | case2 => cases h
  | case3 s a t hr rest hf =>
    cases h
    have := length_field hr
    have := length_follow (.inl hf)
    omega
  | case4 s a t hr rest' hf _ ih =>
    obtain ⟨⟨as', rest''⟩, hi, he⟩ := map_eq_ok h
    cases he
    have := length_field hr
    have := length_follow (.inr hf)
    have := ih hi
    omega

def recordBody (care : Care) (r : Reader α) (s : Source) : Step (List (String × α)) :=
  match closesAtOnce '}' s with
  | some rest => .ok ([], rest)
  | none => fields care r s

theorem length_recordBody {care : Care} {r : Reader α} {s rest : Source}
    {as : List (String × α)} (h : recordBody care r s = .ok (as, rest)) :
    rest.length ≤ s.length := by
  unfold recordBody at h
  split at h
  · rename_i hc
    cases h
    exact Nat.le_of_lt (length_closesAtOnce hc)
  · exact Nat.le_of_lt (length_fields h)

/-! ## Any value -/

/-- The value of a number.  One out of range is only met where values are
skimmed, and then counts as nothing. -/
def ofNumber (n : Number) : Json :=
  match n.toInt? with
  | some k => .int k
  | none => match n.value? with
    | some x => .real x
    | none => .null

/-- Any value whose lists and records hold what `inner` reads.  Without it there
may be none. -/
def anyBody (care : Care) (inner : Option (Reader Json)) (c : Char) (s : Source) : Step Json :=
  if c == '[' then
    match inner with
    | some r => (listBody r c s).map fun (items, rest) => (.list items, rest)
    | none => .error .malformed
  else if c == '{' then
    match inner with
    | some r => (recordBody care r s).map fun (fields, rest) => (.record fields, rest)
    | none => .error .malformed
  else if c == '"' then
    (characters care s).map fun (cs, rest) => (.text (String.ofList cs), rest)
  else if startsNumber c then
    (number care (some c :: s)).map fun (n, rest) => (ofNumber n, rest)
  else if c == 't' then (word ['r', 'u', 'e'] s).map fun rest => (.flag true, rest)
  else if c == 'f' then (word ['a', 'l', 's', 'e'] s).map fun rest => (.flag false, rest)
  else if c == 'n' then (word ['u', 'l', 'l'] s).map fun rest => (.null, rest)
  else .error .malformed

theorem length_anyBody {care : Care} {inner : Option (Reader Json)} {c : Char}
    {s rest : Source} {j : Json} (h : anyBody care inner c s = .ok (j, rest)) :
    rest.length ≤ s.length := by
  unfold anyBody at h
  repeat' split at h
  · obtain ⟨⟨a, rest'⟩, hl, he⟩ := map_eq_ok h
    cases he; exact length_listBody hl
  · cases h
  · obtain ⟨⟨a, rest'⟩, hl, he⟩ := map_eq_ok h
    cases he; exact length_recordBody hl
  · cases h
  · obtain ⟨⟨a, rest'⟩, hl, he⟩ := map_eq_ok h
    cases he; exact Nat.le_of_lt (length_characters hl)
  · obtain ⟨⟨a, rest'⟩, hl, he⟩ := map_eq_ok h
    cases he; exact Nat.le_of_lt_succ (length_number hl)
  · obtain ⟨rest', hw, he⟩ := map_eq_ok h
    cases he; exact length_word hw
  · obtain ⟨rest', hw, he⟩ := map_eq_ok h
    cases he; exact length_word hw
  · obtain ⟨rest', hw, he⟩ := map_eq_ok h
    cases he; exact length_word hw
  · cases h

/-- Any value whose lists and records are nested at most `depth` deep. -/
def anyWithin (care : Care) : Nat → Reader Json
  | 0 => ofFirst (anyBody care none) length_anyBody
  | depth + 1 =>
    ofFirst (fun c s => anyBody care (some (anyWithin care depth)) c s) length_anyBody

/-- How deep a value may be nested that is kept and stands in a record.  The
limit of the whole text is 127. -/
def depthLimit : Nat := 126

/-- Any value.  A text is never nested deeper than it is long. -/
def any (care : Care) : Reader Json where
  run s := (anyWithin care s.length).run s
  shorter h := (anyWithin care _).shorter h

/-- A whole text that is one value. -/
def parseSource (r : Reader α) (s : Source) : Except Fault α :=
  match r.run s with
  | .error f => .error f
  | .ok (a, rest) => if (skipBlanks rest).isEmpty then .ok a else .error .malformed

def parse (r : Reader α) (text : String) : Except Fault α :=
  r.parseSource (.ofChars text.toList)

end Reader

def parse (text : String) : Except Fault Json := (Reader.any .exact).parse text

end Json
end BotFleet
