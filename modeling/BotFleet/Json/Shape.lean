import BotFleet.Instant
import BotFleet.Json.Reader

/-
Shapes of JSON text and the values they describe.

A shape says what a text must hold.  It fixes a type of values, a writer and a
reader, so each message of the service is described once.  A record is written
as an object with its fields in order.  It is read from an object with its
fields in any order, or from a list of its fields in order unless it has fields
of other names.
-/

namespace BotFleet
namespace Json

/-- What a missing field means. -/
inductive Absence where
  /-- The record is refused, unless the field's own shape admits nothing. -/
  | refused
  /-- The reader of the record is told that the field is missing. -/
  | noted
deriving DecidableEq, Repr

mutual

inductive Shape where
  | flag
  | whole (lo hi : Int)
  | real
  | text
  | instant
  /-- Any value that passes a test, if it is not nested too deep. -/
  | checked (test : Json → Bool)
  | optional (shape : Shape)
  | list (shape : Shape)
  | record (fields : Fields)
  | choice (names : List String)
  /-- A record of one field, whose name says what the value is. -/
  | tagged (name : String) (shape : Shape)

inductive Fields where
  | nil
  /-- Any further fields.  Their values are of one shape, and are not kept. -/
  | others (shape : Shape)
  | cons (name : String) (absence : Absence) (shape : Shape) (rest : Fields)

end

mutual

/-- The values that a shape describes. -/
def Shape.Value : Shape → Type
  | .flag => Bool
  | .whole lo hi => Ranged lo hi
  | .real => Double
  | .text => String
  | .instant => Instant
  | .checked test => { j : Json // test j }
  | .optional s => Option s.Value
  | .list s => List s.Value
  | .record fs => fs.Values
  | .choice names => { n : String // n ∈ names }
  | .tagged _ s => s.Value

/-- The values of a record's fields.  A field that may be missing has a value
only if it is there. -/
def Fields.Values : Fields → Type
  | .nil => Unit
  | .others _ => Unit
  | .cons _ .refused s rest => s.Value × rest.Values
  | .cons _ .noted s rest => Option s.Value × rest.Values

end

/-! ## Writing -/

mutual

def Shape.toJson : (s : Shape) → s.Value → Json
  | .flag, b => .flag b
  | .whole _ _, n => .int n.val
  | .real, x => .real x
  | .text, t => .text t
  | .instant, t => .text t.text
  | .checked _, j => j.val
  | .optional _, none => .null
  | .optional s, some v => s.toJson v
  | .list s, vs => .list (vs.map s.toJson)
  | .record fs, vs => .record (fs.toFields vs)
  | .choice _, n => .text n.val
  | .tagged name s, v => .record [(name, s.toJson v)]

def Fields.toFields : (fs : Fields) → fs.Values → List (String × Json)
  | .nil, _ => []
  | .others _, _ => []
  | .cons name .refused s rest, (v, vs) => (name, s.toJson v) :: rest.toFields vs
  | .cons name .noted s rest, (some v, vs) => (name, s.toJson v) :: rest.toFields vs
  | .cons _ .noted _ rest, (none, vs) => rest.toFields vs

end

/-! ## Reading -/

/-- What has been read of a record so far. -/
def Fields.Partial : Fields → Type
  | .nil => Unit
  | .others _ => Unit
  | .cons _ _ s rest => Option s.Value × rest.Partial

def Fields.blank : (fs : Fields) → fs.Partial
  | .nil => ()
  | .others _ => ()
  | .cons _ _ _ rest => (none, rest.blank)

/-- What a missing value of the shape means, if it means anything. -/
def Shape.absent? : (s : Shape) → Option s.Value
  | .optional _ => some (none : Option _)
  | _ => none

/-- The values of a record all of whose fields have been read. -/
def Fields.complete? : (fs : Fields) → fs.Partial → Option fs.Values
  | .nil, _ => some ()
  | .others _, _ => some ()
  | .cons _ .refused s rest, (v, vs) =>
    match v <|> s.absent?, rest.complete? vs with
    | some v, some vs => some (v, vs)
    | _, _ => none
  | .cons _ .noted _ rest, (v, vs) => (rest.complete? vs).map fun vs => (v, vs)

namespace Reader

/-- One of some names, as a string or as the only field of a record whose value
is null. -/
def choiceBody (names : List String) (c : Char) (s : Source) :
    Step { n : String // n ∈ names } :=
  let named (name : String) (rest : Source) : Step { n : String // n ∈ names } :=
    if h : name ∈ names then .ok (⟨name, h⟩, rest) else .error .mismatched
  if c == '"' then
    match characters .exact s with
    | .error f => .error f
    | .ok (cs, rest) => named (String.ofList cs) rest
  else if c == '{' then
    match text.run s with
    | .error f => .error f
    | .ok (name, s) =>
      match named name s with
      | .error f => .error f
      | .ok (n, s) =>
        match mark ':' s with
        | .error f => .error f
        | .ok s =>
          match skipBlanks s with
          | [] => .error .cutShort
          | none :: _ => .error .malformed
          | some d :: s =>
            if d == 'n' then
              match word ['u', 'l', 'l'] s with
              | .error f => .error f
              | .ok s => (mark '}' s).map fun rest => (n, rest)
            else .error (refuse d s)
  else .error .malformed

theorem length_choiceBody {names : List String} {c : Char} {s rest : Source}
    {a : { n : String // n ∈ names }} (h : choiceBody names c s = .ok (a, rest)) :
    rest.length ≤ s.length := by
  unfold choiceBody at h
  dsimp only at h
  split at h
  · split at h
    · cases h
    · rename_i hc
      split at h
      · cases h; exact Nat.le_of_lt (length_characters hc)
      · cases h
  · split at h
    · split at h
      · cases h
      · rename_i ht
        split at h
        · cases h
        · rename_i hn
          split at hn
          · cases hn
            split at h
            · cases h
            · rename_i hm
              split at h
              · cases h
              · cases h
              · rename_i s' _ _ _ heq
                have := length_skipBlanks s'
                rw [heq, List.length_cons] at this
                split at h
                · split at h
                  · cases h
                  · rename_i hw
                    obtain ⟨rest', hcl, he⟩ := map_eq_ok h
                    cases he
                    have := text.shorter ht
                    have := length_mark hm
                    have := length_word hw
                    have := length_mark hcl
                    omega
                · cases h
          · cases hn
    · cases h

def choice (names : List String) : Reader { n : String // n ∈ names } :=
  ofFirst (choiceBody names) length_choiceBody

/-- The only field of a record, whose name says what the value is.  The name
alone, as a string, stands for no value. -/
def taggedBody {α : Type} (name : String) (r : Reader α) (c : Char) (s : Source) : Step α :=
  if c == '{' then
    match text.run s with
    | .error f => .error f
    | .ok (found, s) =>
      if found == name then
        match mark ':' s with
        | .error f => .error f
        | .ok s =>
          match r.run s with
          | .error f => .error f
          | .ok (a, s) => (mark '}' s).map fun rest => (a, rest)
      else .error .mismatched
  else if c == '"' then .error (refuse c s)
  else .error .malformed

theorem length_taggedBody {α : Type} {name : String} {r : Reader α} {c : Char}
    {s rest : Source} {a : α} (h : taggedBody name r c s = .ok (a, rest)) :
    rest.length ≤ s.length := by
  unfold taggedBody at h
  split at h
  · split at h
    · cases h
    · rename_i ht
      split at h
      · split at h
        · cases h
        · rename_i hm
          split at h
          · cases h
          · rename_i hr
            obtain ⟨rest', hcl, he⟩ := map_eq_ok h
            cases he
            have := text.shorter ht
            have := length_mark hm
            have := r.shorter hr
            have := length_mark hcl
            omega
      · cases h
  · split at h <;> cases h

def tagged {α : Type} (name : String) (r : Reader α) : Reader α :=
  ofFirst (taggedBody name r) length_taggedBody

/-! ### Records

`slot` finds the reader of a field by its name.  A field that has been read
already has none, which is a mismatch as soon as its name is met again. -/

inductive Slot (α : Type) where
  | unknown
  | taken
  | free (reader : Reader α)

def Slot.map {α β : Type} (f : α → β) : Slot α → Slot β
  | .unknown => .unknown
  | .taken => .taken
  | .free r => .free (r.map f)

/-- One field of an object: the state after it.  A field with an unknown name is
skimmed. -/
def entry {σ : Type} (slot : String → σ → Slot σ) (state : σ) (s : Source) : Step σ :=
  match key .exact s with
  | .error f => .error f
  | .ok (name, s) =>
    match slot name state with
    | .taken => .error .mismatched
    | .unknown =>
      match mark ':' s with
      | .error f => .error f
      | .ok s => ((any .skimmed).run s).map fun (_, rest) => (state, rest)
    | .free r =>
      match mark ':' s with
      | .error f => .error f
      | .ok s => r.run s

theorem length_entry {σ : Type} {slot : String → σ → Slot σ} {state next : σ}
    {s rest : Source} (h : entry slot state s = .ok (next, rest)) :
    rest.length < s.length := by
  unfold entry at h
  split at h
  · cases h
  · rename_i hk
    have := length_key hk
    split at h
    · cases h
    · split at h
      · cases h
      · rename_i hm
        obtain ⟨⟨a, rest'⟩, hr, he⟩ := map_eq_ok h
        cases he
        have := length_mark hm
        have := (any .skimmed).shorter hr
        omega
    · rename_i r _
      split at h
      · cases h
      · rename_i hm
        have := length_mark hm
        have := r.shorter h
        omega

def entries {σ : Type} (slot : String → σ → Slot σ) (state : σ) (s : Source) : Step σ :=
  match hr : entry slot state s with
  | .error f => .error f
  | .ok (next, t) =>
    match hf : follow '}' t with
    | .error f => .error f
    | .ok (.closed rest) => .ok (next, rest)
    | .ok (.more rest) =>
      have : rest.length < s.length := Nat.lt_trans (length_follow (.inr hf)) (length_entry hr)
      entries slot next rest
termination_by s.length

theorem length_entries {σ : Type} {slot : String → σ → Slot σ} {state next : σ}
    {s rest : Source} (h : entries slot state s = .ok (next, rest)) :
    rest.length < s.length := by
  fun_induction entries slot state s with
  | case1 => cases h
  | case2 => cases h
  | case3 state s next' t hr rest' hf =>
    cases h
    have := length_entry hr
    have := length_follow (.inl hf)
    omega
  | case4 state s next' t hr rest' hf hlt ih =>
    have := ih h
    omega

def objectBody {σ : Type} (slot : String → σ → Slot σ) (state : σ) (s : Source) : Step σ :=
  match closesAtOnce '}' s with
  | some rest => .ok (state, rest)
  | none => entries slot state s

theorem length_objectBody {σ : Type} {slot : String → σ → Slot σ} {state next : σ}
    {s rest : Source} (h : objectBody slot state s = .ok (next, rest)) :
    rest.length ≤ s.length := by
  unfold objectBody at h
  split at h
  · rename_i hc
    cases h
    exact Nat.le_of_lt (length_closesAtOnce hc)
  · exact Nat.le_of_lt (length_entries h)

/-- The next item of a list of fields, or `none` at the closing bracket, which is
left in place. -/
def nextItem (first : Bool) (s : Source) : Except Fault (Option Source) :=
  match skipBlanks s with
  | [] => .error .cutShort
  | u :: rest =>
    if u == some ']' then .ok none
    else if first then .ok (some (u :: rest))
    else if u == some ',' then
      match skipBlanks rest with
      | [] => .error .cutShort
      | v :: rest => if v == some ']' then .error .malformed else .ok (some (v :: rest))
    else .error .malformed

theorem length_nextItem {first : Bool} {s rest : Source}
    (h : nextItem first s = .ok (some rest)) : rest.length ≤ s.length := by
  have hs := length_skipBlanks s
  unfold nextItem at h
  split at h
  · cases h
  · rename_i c t heq
    rw [heq, List.length_cons] at hs
    split at h
    · cases h
    · split at h
      · cases h; exact hs
      · split at h
        · have ht := length_skipBlanks t
          split at h
          · cases h
          · rename_i heq'
            rw [heq', List.length_cons] at ht
            split at h
            · cases h
            · cases h
              simp only [List.length_cons]
              omega
        · cases h

/-- Takes the fields of a record off a list, in order.  `run` is told whether the
first item is still to come. -/
structure Sequence (α : Type) where
  run : Bool → Source → Step α
  shorter : ∀ {first s a rest}, run first s = .ok (a, rest) → rest.length < s.length

/-- Nothing but the closing bracket may follow the last field. -/
def Sequence.done : Sequence Unit where
  run _ s := (mark ']' s).map fun rest => ((), rest)
  shorter := by
    intro first s a rest h
    obtain ⟨rest', hm, he⟩ := map_eq_ok h
    cases he
    exact length_mark hm

/-- Fields of other names have no place in a list. -/
def Sequence.never : Sequence Unit where
  run _ _ := .error .mismatched
  shorter h := nomatch h

/-- A field and the fields after it.  `missing` is the value of the field where
the list has ended. -/
def Sequence.cons {α β : Type} (r : Reader α) (missing : Option α) (fields : Sequence β) :
    Sequence (α × β) where
  run first s :=
    match nextItem first s with
    | .error f => .error f
    | .ok none =>
      match missing with
      | some a => (fields.run first s).map fun (b, rest) => ((a, b), rest)
      | none => .error .mismatched
    | .ok (some t) =>
      match r.run t with
      | .error f => .error f
      | .ok (a, t) => (fields.run false t).map fun (b, rest) => ((a, b), rest)
  shorter := by
    intro first s a rest h
    split at h
    · cases h
    · split at h
      · obtain ⟨⟨b, rest'⟩, hr, he⟩ := map_eq_ok h
        cases he
        exact fields.shorter hr
      · cases h
    · rename_i hn
      split at h
      · cases h
      · rename_i hr
        obtain ⟨⟨b, rest'⟩, hf, he⟩ := map_eq_ok h
        cases he
        have := length_nextItem hn
        have := r.shorter hr
        have := fields.shorter hf
        omega

/-- A record, from an object by `slot` or from a list by `sequence`. -/
def recordFirst {σ α : Type} (slot : String → σ → Slot σ) (blank : σ) (complete? : σ → Option α)
    (sequence : Sequence α) (c : Char) (s : Source) : Step α :=
  if c == '{' then
    match objectBody slot blank s with
    | .error f => .error f
    | .ok (state, rest) =>
      match complete? state with
      | some a => .ok (a, rest)
      | none => .error .mismatched
  else if c == '[' then sequence.run true s
  else .error (refuse c s)

theorem length_recordFirst {σ α : Type} {slot : String → σ → Slot σ} {blank : σ}
    {complete? : σ → Option α} {sequence : Sequence α} {c : Char} {s rest : Source} {a : α}
    (h : recordFirst slot blank complete? sequence c s = .ok (a, rest)) :
    rest.length ≤ s.length := by
  unfold recordFirst at h
  split at h
  · split at h
    · cases h
    · rename_i ho
      split at h
      · cases h; exact length_objectBody ho
      · cases h
  · split at h
    · exact Nat.le_of_lt (sequence.shorter h)
    · cases h

end Reader

mutual

def Shape.reader : (s : Shape) → Reader s.Value
  | .flag => Reader.flag
  | .whole lo hi => Reader.whole lo hi
  | .real => Reader.real
  | .text => Reader.text
  | .instant => Reader.text.filterMap fun t => Instant.read? t.toList
  | .checked test =>
    (Reader.anyWithin .exact Reader.depthLimit).filterMap fun j =>
      if h : test j then some ⟨j, h⟩ else none
  | .optional s => s.reader.optional
  | .list s => s.reader.list
  | .record fs =>
    Reader.ofFirst (Reader.recordFirst fs.slot fs.blank fs.complete? fs.sequence)
      Reader.length_recordFirst
  | .choice names => Reader.choice names
  | .tagged name s => Reader.tagged name s.reader

/-- The reader of the field with a name, which puts the value in its place. -/
def Fields.slot : (fs : Fields) → String → fs.Partial → Reader.Slot fs.Partial
  | .nil, _, _ => .unknown
  | .others s, _, u => .free (s.reader.map fun _ => u)
  | .cons name _ s rest, found, (v, vs) =>
    if found == name then
      match v with
      | some _ => .taken
      | none => .free (s.reader.map fun v => (some v, vs))
    else (rest.slot found vs).map fun vs => (v, vs)

def Fields.sequence : (fs : Fields) → Reader.Sequence fs.Values
  | .nil => .done
  | .others _ => .never
  | .cons _ .refused s rest => .cons s.reader none rest.sequence
  | .cons _ .noted s rest => .cons (s.reader.map some) (some none) rest.sequence

end

end Json
end BotFleet
