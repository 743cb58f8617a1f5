import BotFleet.Json.Basic
import BotFleet.Text.Digit
import BotFleet.Text.Utf8

/-
Words, strings and numbers of JSON text.

Text is read from the left and the first thing wrong decides which fault is
reported.  A part of the text that nobody asked for is skimmed: its strings may
hold halves of surrogate pairs or bytes that are no character, and its numbers
may be of any size.
-/

namespace BotFleet
namespace Json

/-- A text to be read.  `none` stands for bytes that are no character. -/
abbrev Source := List (Option Char)

namespace Source

def ofChars (s : List Char) : Source := s.map some

def ofBytes (bytes : List UInt8) : Source := Utf8.units bytes

/-- The number of bytes.  A place that is no character counts as one. -/
def size (s : Source) : Nat := (Utf8.encode (s.map fun u => u.getD '?')).length

end Source

/-- Why a text is not the JSON that was asked for. -/
inductive Fault where
  /-- The text ends too early. -/
  | cutShort
  /-- The text is no JSON from here on. -/
  | malformed
  /-- The text is JSON up to here, but not of the shape asked for. -/
  | mismatched
deriving DecidableEq, Repr

/-- How closely a part of the text is read. -/
inductive Care where
  | exact
  | skimmed
deriving DecidableEq, Repr

/-- What a reading step yields, and the text after it. -/
abbrev Step (α : Type) := Except Fault (α × Source)

def isBlank (u : Option Char) : Bool :=
  u == some ' ' || u == some '\n' || u == some '\t' || u == some '\r'

def skipBlanks (s : Source) : Source := s.dropWhile isBlank

theorem length_skipBlanks (s : Source) : (skipBlanks s).length ≤ s.length :=
  (List.dropWhile_suffix isBlank).length_le

/-- The rest of a word whose first letter has been read. -/
def word : List Char → Source → Except Fault Source
  | [], s => .ok s
  | _ :: _, [] => .error .cutShort
  | c :: cs, u :: s => if u == some c then word cs s else .error .malformed

theorem length_word {w : List Char} {s rest : Source} (h : word w s = .ok rest) :
    rest.length ≤ s.length := by
  induction w generalizing s with
  | nil => cases h; exact Nat.le_refl _
  | cons c cs ih =>
    cases s with
    | nil => cases h
    | cons u s =>
      simp only [word] at h
      split at h
      · exact Nat.le_succ_of_le (ih h)
      · cases h

/-! ## Strings -/

/-- The number that four hexadecimal digits spell.  Where fewer than four bytes
are left the text ends too early, whatever they are. -/
def hexUnit : Source → Step Nat
  | a :: b :: c :: d :: rest =>
    match a.bind Digit.hexValue?, b.bind Digit.hexValue?, c.bind Digit.hexValue?,
        d.bind Digit.hexValue? with
    | some a, some b, some c, some d => .ok (a * 4096 + b * 256 + c * 16 + d, rest)
    | _, _, _, _ => .error .malformed
  | short => if short.size < 4 then .error .cutShort else .error .malformed

theorem length_hexUnit {s rest : Source} {n : Nat} (h : hexUnit s = .ok (n, rest)) :
    rest.length < s.length := by
  unfold hexUnit at h
  split at h
  · split at h
    · cases h
      simp only [List.length_cons]
      omega
    · cases h
  · split at h <;> cases h

def isHighHalf (n : Nat) : Bool := 0xD800 ≤ n && n ≤ 0xDBFF
def isLowHalf (n : Nat) : Bool := 0xDC00 ≤ n && n ≤ 0xDFFF

def joinHalves (high low : Nat) : Char :=
  Char.ofNat ((high - 0xD800) * 0x400 + (low - 0xDC00) + 0x10000)

/-- The character of a pair whose first half is `high`, read from the escape of
its second half. -/
def secondHalf (high : Nat) : Source → Step Char
  | [] => .error .cutShort
  | [some '\\'] => .error .cutShort
  | some '\\' :: some 'u' :: digits =>
    match hexUnit digits with
    | .error f => .error f
    | .ok (low, rest) =>
      if isLowHalf low then .ok (joinHalves high low, rest) else .error .malformed
  | _ => .error .malformed

theorem length_secondHalf {high : Nat} {s rest : Source} {c : Char}
    (h : secondHalf high s = .ok (c, rest)) : rest.length < s.length := by
  unfold secondHalf at h
  split at h
  · cases h
  · cases h
  · split at h
    · cases h
    · rename_i hm
      have := length_hexUnit hm
      split at h
      · obtain ⟨-, rfl⟩ := Prod.mk.inj (Except.ok.inj h)
        simp only [List.length_cons]
        omega
      · cases h
  · cases h

/-- The character that a numbered escape stands for, from the digits on.  Halves
of surrogate pairs must come in pairs. -/
def unicodeEscape (s : Source) : Step Char :=
  match hexUnit s with
  | .error f => .error f
  | .ok (n, rest) =>
    if isLowHalf n then .error .malformed
    else if isHighHalf n then secondHalf n rest
    else .ok (Char.ofNat n, rest)

theorem length_unicodeEscape {s rest : Source} {c : Char}
    (h : unicodeEscape s = .ok (c, rest)) : rest.length < s.length := by
  unfold unicodeEscape at h
  cases hn : hexUnit s with
  | error f => rw [hn] at h; cases h
  | ok p =>
    have hlt : p.2.length < s.length := length_hexUnit hn
    rw [hn] at h
    dsimp only at h
    by_cases hl : isLowHalf p.1 = true
    · rw [if_pos hl] at h; cases h
    · rw [if_neg hl] at h
      by_cases hh : isHighHalf p.1 = true
      · rw [if_pos hh] at h
        have := length_secondHalf h
        omega
      · rw [if_neg hh] at h
        cases h
        exact hlt

/-- The character that an escape stands for, from the letter on. -/
def unescape (care : Care) : Source → Step Char
  | [] => .error .cutShort
  | none :: _ => .error .malformed
  | some c :: s =>
    if c == '"' || c == '\\' || c == '/' then .ok (c, s)
    else if c == 'b' then .ok ('\x08', s)
    else if c == 'f' then .ok ('\x0c', s)
    else if c == 'n' then .ok ('\n', s)
    else if c == 'r' then .ok ('\r', s)
    else if c == 't' then .ok ('\t', s)
    else if c == 'u' then
      match care with
      | .exact => unicodeEscape s
      | .skimmed => (hexUnit s).map fun (n, rest) => (Char.ofNat n, rest)
    else .error .malformed

theorem length_unescape {care : Care} {s rest : Source} {c : Char}
    (h : unescape care s = .ok (c, rest)) : rest.length < s.length := by
  match s with
  | [] => cases h
  | none :: _ => cases h
  | some d :: s =>
    have plain {x : Char} (h : (.ok (x, s) : Step Char) = .ok (c, rest)) :
        rest.length < (some d :: s).length := by cases h; exact Nat.lt_succ_self _
    simp only [unescape] at h
    repeat' split at h
    · exact plain h
    · exact plain h
    · exact plain h
    · exact plain h
    · exact plain h
    · exact plain h
    · exact Nat.lt_succ_of_lt (length_unicodeEscape h)
    · cases hs : hexUnit s with
      | error f => rw [hs] at h; cases h
      | ok p =>
        have hlt : p.2.length < s.length := length_hexUnit hs
        rw [hs] at h
        cases h
        exact Nat.lt_succ_of_lt hlt
    · cases h

/-- What follows a string that ends in the escape of a first half, from the
letter of the escape on. -/
def afterLoneHalf : Source → Option Source
  | some 'u' :: s =>
    match hexUnit s with
    | .ok (n, some '"' :: rest) => if isHighHalf n then some rest else none
    | _ => none
  | _ => none

theorem length_afterLoneHalf {s rest : Source} (h : afterLoneHalf s = some rest) :
    rest.length < s.length := by
  unfold afterLoneHalf at h
  split at h
  · split at h
    · rename_i hu
      have := length_hexUnit hu
      split at h
      · cases h
        simp only [List.length_cons] at this ⊢
        omega
      · cases h
    · cases h
  · cases h

theorem map_eq_ok {ε α β : Type} {f : α → β} {x : Except ε α} {b : β}
    (h : x.map f = .ok b) : ∃ a, x = .ok a ∧ f a = b := by
  cases x with
  | error e => cases h
  | ok a => exact ⟨a, rfl, Except.ok.inj h⟩

/-- The characters of a string after its opening quote, or `none` where the
string has an end but its characters cannot be told: some bytes are no
character, or a first half stands alone at the end. -/
def spelling (care : Care) : Source → Step (Option (List Char))
  | [] => .error .cutShort
  | none :: s => (spelling care s).map fun (_, rest) => (none, rest)
  | some c :: s =>
    if c == '"' then .ok (some [], s)
    else if c == '\\' then
      match h : unescape care s with
      | .ok (d, rest) =>
        have := length_unescape h
        (spelling care rest).map fun (cs, rest) => (cs.map (d :: ·), rest)
      | .error f =>
        match afterLoneHalf s with
        | some rest => .ok (none, rest)
        | none => .error f
    else if c.toNat < 0x20 then .error .malformed
    else (spelling care s).map fun (cs, rest) => (cs.map (c :: ·), rest)
termination_by s => s.length
decreasing_by
  all_goals simp only [List.length_cons]; omega

theorem length_spelling {care : Care} {s rest : Source} {cs : Option (List Char)}
    (h : spelling care s = .ok (cs, rest)) : rest.length < s.length := by
  fun_induction spelling care s generalizing cs rest with
  | case1 => cases h
  | case2 _ ih =>
    obtain ⟨⟨cs', rest'⟩, hc, he⟩ := map_eq_ok h
    cases he
    exact Nat.lt_succ_of_lt (ih hc)
  | case3 => cases h; simp
  | case4 _ _ _ _ _ _ _ hlt ih =>
    obtain ⟨⟨cs', rest'⟩, hc, he⟩ := map_eq_ok h
    cases he
    have := ih hc
    simp only [List.length_cons]
    omega
  | case5 _ _ _ _ _ _ _ ha =>
    cases h
    exact Nat.lt_succ_of_lt (length_afterLoneHalf ha)
  | case6 => cases h
  | case7 => cases h
  | case8 _ _ _ _ _ ih =>
    obtain ⟨⟨cs', rest'⟩, hc, he⟩ := map_eq_ok h
    cases he
    exact Nat.lt_succ_of_lt (ih hc)

/-- The characters of a string after its opening quote.  Where they cannot be
told, a string that is skimmed counts as empty. -/
def characters (care : Care) (s : Source) : Step (List Char) :=
  match spelling care s with
  | .error f => .error f
  | .ok (some cs, rest) => .ok (cs, rest)
  | .ok (none, rest) =>
    match care with
    | .exact => .error .malformed
    | .skimmed => .ok ([], rest)

theorem length_characters {care : Care} {s rest : Source} {cs : List Char}
    (h : characters care s = .ok (cs, rest)) : rest.length < s.length := by
  unfold characters at h
  split at h
  · cases h
  · rename_i hs
    cases h
    exact length_spelling hs
  · rename_i hs
    split at h
    · cases h
    · cases h
      exact length_spelling hs

/-! ## Numbers -/

/-- The fault of a number that stops before a digit it needs. -/
def needDigit (care : Care) : Source → Fault
  | [] => match care with
    | .exact => .cutShort
    | .skimmed => .malformed
  | _ :: _ => .malformed

def spanDigits : Source → List Char × Source
  | some c :: s =>
    if c.isDigit then
      let (ds, rest) := spanDigits s
      (c :: ds, rest)
    else ([], some c :: s)
  | s => ([], s)

theorem length_spanDigits (s : Source) :
    (spanDigits s).1.length + (spanDigits s).2.length = s.length := by
  fun_induction spanDigits s with
  | case1 c s hc ds rest heq ih =>
    rw [heq] at ih
    simp only [List.length_cons] at ih ⊢
    omega
  | case2 => simp
  | case3 => simp

/-- The digits at the front, of which there must be one, and what follows. -/
def digits (care : Care) (s : Source) : Step (List Char) :=
  match spanDigits s with
  | ([], _) => .error (needDigit care s)
  | (ds, rest) => .ok (ds, rest)

theorem length_digits {care : Care} {s rest : Source} {ds : List Char}
    (h : digits care s = .ok (ds, rest)) : rest.length < s.length := by
  have hs := length_spanDigits s
  unfold digits at h
  split at h
  · cases h
  · rename_i hne heq
    cases h
    rw [heq] at hs
    have : 0 < ds.length := List.length_pos_iff.mpr hne
    dsimp only at hs
    omega

/-- The exponent of a number, after the letter. -/
def exponent (care : Care) : Source → Step Int
  | some '-' :: s => (digits care s).map fun (ds, rest) => (-Nat.ofDigitChars 10 ds 0, rest)
  | some '+' :: s => (digits care s).map fun (ds, rest) => (Nat.ofDigitChars 10 ds 0, rest)
  | s => (digits care s).map fun (ds, rest) => (Nat.ofDigitChars 10 ds 0, rest)

def places (care : Care) : Source → Step (List Char)
  | some '.' :: s => digits care s
  | s => .ok ([], s)

def scaling (care : Care) : Source → Step (Option Int)
  | some 'e' :: s => (exponent care s).map fun (e, rest) => (some e, rest)
  | some 'E' :: s => (exponent care s).map fun (e, rest) => (some e, rest)
  | s => .ok (none, s)

theorem length_exponent {care : Care} {s rest : Source} {e : Int}
    (h : exponent care s = .ok (e, rest)) : rest.length < s.length := by
  unfold exponent at h
  split at h <;>
  · obtain ⟨⟨ds, rest'⟩, hd, he⟩ := map_eq_ok h
    cases he
    have := length_digits hd
    first
      | exact this
      | exact Nat.lt_succ_of_lt this

theorem length_places {care : Care} {s rest : Source} {ds : List Char}
    (h : places care s = .ok (ds, rest)) : rest.length ≤ s.length := by
  unfold places at h
  split at h
  · exact Nat.le_succ_of_le (Nat.le_of_lt (length_digits h))
  · cases h; exact Nat.le_refl _

theorem length_scaling {care : Care} {s rest : Source} {e : Option Int}
    (h : scaling care s = .ok (e, rest)) : rest.length ≤ s.length := by
  unfold scaling at h
  split at h
  · obtain ⟨⟨e', rest'⟩, hd, he⟩ := map_eq_ok h
    cases he
    exact Nat.le_succ_of_le (Nat.le_of_lt (length_exponent hd))
  · obtain ⟨⟨e', rest'⟩, hd, he⟩ := map_eq_ok h
    cases he
    exact Nat.le_succ_of_le (Nat.le_of_lt (length_exponent hd))
  · cases h; exact Nat.le_refl _

/-- Whether digits begin with a zero that stands for nothing. -/
def hasSpareZero : List Char → Bool
  | '0' :: _ :: _ => true
  | _ => false

/-- A number after its sign. -/
def magnitude (care : Care) (negative : Bool) (s : Source) : Step Number :=
  match digits care s with
  | .error f => .error f
  | .ok (whole, s) =>
    if hasSpareZero whole then .error .malformed
    else
      match places care s with
      | .error f => .error f
      | .ok (fraction, s) =>
        match scaling care s with
        | .error f => .error f
        | .ok (e, s) => .ok (⟨negative, whole, fraction, e⟩, s)

theorem length_magnitude {care : Care} {negative : Bool} {s rest : Source} {n : Number}
    (h : magnitude care negative s = .ok (n, rest)) : rest.length < s.length := by
  unfold magnitude at h
  split at h
  · cases h
  · rename_i hd
    have := length_digits hd
    split at h
    · cases h
    · split at h
      · cases h
      · rename_i hp
        have := length_places hp
        split at h
        · cases h
        · rename_i hs
          have := length_scaling hs
          cases h
          omega

/-- A number of any size, from its sign on. -/
def signedMagnitude (care : Care) : Source → Step Number
  | some '-' :: s => magnitude care true s
  | s => magnitude care false s

theorem length_signedMagnitude {care : Care} {s rest : Source} {n : Number}
    (h : signedMagnitude care s = .ok (n, rest)) : rest.length < s.length := by
  unfold signedMagnitude at h
  split at h
  · exact Nat.lt_succ_of_lt (length_magnitude h)
  · exact length_magnitude h

/-- A number, from its sign on.  One that is read with care has to be within
range. -/
def number (care : Care) (s : Source) : Step Number :=
  match signedMagnitude care s with
  | .error f => .error f
  | .ok (n, rest) =>
    if care = .exact && !n.isInRange then .error .malformed else .ok (n, rest)

theorem length_number {care : Care} {s rest : Source} {n : Number}
    (h : number care s = .ok (n, rest)) : rest.length < s.length := by
  unfold number at h
  split at h
  · cases h
  · rename_i hm
    split at h
    · cases h
    · cases h
      exact length_signedMagnitude hm

def startsNumber (c : Char) : Bool := c == '-' || c.isDigit

end Json
end BotFleet
