import BotFleet.Json.Reader

/-
Values that need not have a meaning.

A value is flawed where it holds a string whose characters cannot be told or a
number out of range.  Reading stops behind the first flaw, so a flaw is passed
over only where nothing but closing brackets follows it in the value.  Whatever
else is wrong with a value is a fault.
-/

namespace BotFleet
namespace Json
namespace Reader

variable {α : Type}

/-- A number, or `none` where it is out of range. -/
def looseNumber (s : Source) : Step (Option Json) :=
  match signedMagnitude .exact s with
  | .error f => .error f
  | .ok (n, rest) =>
    if n.isInRange then .ok (some (ofNumber n), rest)
    else if n.isCutOff then .error .malformed
    else .ok (none, rest)

theorem length_looseNumber {s rest : Source} {j : Option Json}
    (h : looseNumber s = .ok (j, rest)) : rest.length < s.length := by
  unfold looseNumber at h
  split at h
  · cases h
  · rename_i hm
    have := length_signedMagnitude hm
    split at h
    · cases h; exact this
    · split at h
      · cases h
      · cases h; exact this

/-- The entries of a list or a record up to its closing bracket, from the first
one on.  A flawed entry has to be the last. -/
def looseEntries (close : Char) (r : Reader (Option α)) (s : Source) : Step (Option (List α)) :=
  match hr : r.run s with
  | .error f => .error f
  | .ok (none, t) => (mark close t).map fun rest => (none, rest)
  | .ok (some a, t) =>
    match hf : follow close t with
    | .error f => .error f
    | .ok (.closed rest) => .ok (some [a], rest)
    | .ok (.more rest) =>
      have : rest.length < s.length := Nat.lt_trans (length_follow (.inr hf)) (r.shorter hr)
      (looseEntries close r rest).map fun (as, rest) => (as.map (a :: ·), rest)
termination_by s.length

theorem length_looseEntries {close : Char} {r : Reader (Option α)} {s rest : Source}
    {as : Option (List α)} (h : looseEntries close r s = .ok (as, rest)) :
    rest.length < s.length := by
  fun_induction looseEntries close r s generalizing as rest with
  | case1 => cases h
  | case2 s t hr =>
    obtain ⟨rest', hm, he⟩ := map_eq_ok h
    cases he
    have := r.shorter hr
    have := length_mark hm
    omega
  | case3 => cases h
  | case4 s a t hr rest hf =>
    cases h
    have := r.shorter hr
    have := length_follow (.inl hf)
    omega
  | case5 s a t hr rest' hf _ ih =>
    obtain ⟨⟨as', rest''⟩, hi, he⟩ := map_eq_ok h
    cases he
    have := r.shorter hr
    have := length_follow (.inr hf)
    have := ih hi
    omega

/-- A list or a record after its opening bracket. -/
def looseBody (close : Char) (r : Reader (Option α)) (s : Source) : Step (Option (List α)) :=
  match closesAtOnce close s with
  | some rest => .ok (some [], rest)
  | none => looseEntries close r s

theorem length_looseBody {close : Char} {r : Reader (Option α)} {s rest : Source}
    {as : Option (List α)} (h : looseBody close r s = .ok (as, rest)) :
    rest.length ≤ s.length := by
  unfold looseBody at h
  split at h
  · rename_i hc
    cases h
    exact Nat.le_of_lt (length_closesAtOnce hc)
  · exact Nat.le_of_lt (length_looseEntries h)

/-- A field of a record.  A name has to be sound. -/
def looseField (r : Reader (Option α)) : Reader (Option (String × α)) where
  run s := (field .exact r s).map fun ((name, a), rest) => (a.map (name, ·), rest)
  shorter := by
    intro s a rest h
    obtain ⟨⟨a', rest'⟩, hf, he⟩ := map_eq_ok h
    cases he
    exact length_field hf

/-- A value whose lists and records hold what `inner` reads.  Without it there
may be none. -/
def looseValue (inner : Option (Reader (Option Json))) (c : Char) (s : Source) :
    Step (Option Json) :=
  if c == '[' then
    match inner with
    | some r => (looseBody ']' r s).map fun (items, rest) => (items.map .list, rest)
    | none => .error .malformed
  else if c == '{' then
    match inner with
    | some r =>
      (looseBody '}' (looseField r) s).map fun (fields, rest) => (fields.map .record, rest)
    | none => .error .malformed
  else if c == '"' then
    (spelling .exact s).map fun (cs, rest) => (cs.map fun cs => .text (String.ofList cs), rest)
  else if startsNumber c then looseNumber (some c :: s)
  else (anyBody .exact none c s).map fun (j, rest) => (some j, rest)

theorem length_looseValue {inner : Option (Reader (Option Json))} {c : Char} {s rest : Source}
    {j : Option Json} (h : looseValue inner c s = .ok (j, rest)) : rest.length ≤ s.length := by
  unfold looseValue at h
  repeat' split at h
  · obtain ⟨⟨a, rest'⟩, hl, he⟩ := map_eq_ok h
    cases he; exact length_looseBody hl
  · cases h
  · obtain ⟨⟨a, rest'⟩, hl, he⟩ := map_eq_ok h
    cases he; exact length_looseBody hl
  · cases h
  · obtain ⟨⟨a, rest'⟩, hl, he⟩ := map_eq_ok h
    cases he; exact Nat.le_of_lt (length_spelling hl)
  · exact Nat.le_of_lt_succ (length_looseNumber h)
  · obtain ⟨⟨a, rest'⟩, hl, he⟩ := map_eq_ok h
    cases he; exact length_anyBody hl

/-- A value, or `none` where it is flawed.  Its lists and records are nested at
most `depth` deep. -/
def loose : Nat → Reader (Option Json)
  | 0 => ofFirst (looseValue none) length_looseValue
  | depth + 1 => ofFirst (fun c s => looseValue (some (loose depth)) c s) length_looseValue

end Reader
end Json
end BotFleet
