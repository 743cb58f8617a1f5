import BotFleet.Json.Reader

/-
Reading back words and strings.

What is rendered is read back with exactly the text after it left over.  A number
has no mark at its end, so the text after it must not go on with the number:
`Ends` says that it goes on with a comma or a closing bracket, or not at all.
-/

namespace BotFleet
namespace Json

/-- The text after a value that stands in a list or a record, or alone. -/
def Ends (rest : Source) : Prop :=
  ∀ u ∈ rest.head?, u = some ',' ∨ u = some ']' ∨ u = some '}'

theorem ends_nil : Ends [] := fun _ h => nomatch h

theorem ends_cons {u : Option Char} {rest : Source}
    (h : u = some ',' ∨ u = some ']' ∨ u = some '}') : Ends (u :: rest) := by
  rintro v ⟨⟩
  exact h

namespace Source

@[simp] theorem ofChars_nil : ofChars [] = [] := rfl

@[simp] theorem ofChars_cons (c : Char) (s : List Char) :
    ofChars (c :: s) = some c :: ofChars s := rfl

@[simp] theorem ofChars_append (s t : List Char) :
    ofChars (s ++ t) = ofChars s ++ ofChars t :=
  List.map_append

end Source

theorem skipBlanks_of_not_blank {u : Option Char} {s : Source} (h : isBlank u = false) :
    skipBlanks (u :: s) = u :: s := by
  rw [skipBlanks, List.dropWhile_cons, h]
  rfl

/-! ## Strings -/

theorem hexValue?_hexDigit {n : Nat} (h : n < 16) :
    Digit.hexValue? (hexDigit n) = some n := by
  have hall : ∀ k : Fin 16, Digit.hexValue? (hexDigit k.val) = some k.val := by decide
  exact hall ⟨n, h⟩

/-- A control character is read back from its number. -/
theorem hexUnit_control {n : Nat} (h : n < 0x20) (rest : Source) :
    hexUnit (some '0' :: some '0' :: some (hexDigit (n / 16)) :: some (hexDigit (n % 16)) :: rest) =
      .ok (n, rest) := by
  have hzero : Digit.hexValue? '0' = some 0 := by decide
  have hhigh := hexValue?_hexDigit (n := n / 16) (by omega)
  have hlow := hexValue?_hexDigit (n := n % 16) (by omega)
  simp only [hexUnit, Option.bind_some, hzero, hhigh, hlow]
  have hsum : 0 * 4096 + 0 * 256 + n / 16 * 16 + n % 16 = n := by omega
  rw [hsum]

theorem unescape_control {care : Care} {c : Char} (h : c.toNat < 0x20) (rest : Source) :
    unescape care (some 'u' :: some '0' :: some '0' :: some (hexDigit (c.toNat / 16)) ::
      some (hexDigit (c.toNat % 16)) :: rest) = .ok (c, rest) := by
  have hunit := hexUnit_control h rest
  have hlowHalf : isLowHalf c.toNat = false := by simp [isLowHalf]; omega
  have hhighHalf : isHighHalf c.toNat = false := by simp [isHighHalf]; omega
  cases care <;>
    simp [unescape, unicodeEscape, hunit, hlowHalf, hhighHalf, Char.ofNat_toNat, Except.map]

theorem spelling_backslash {care : Care} {s rest : Source} {c : Char}
    (h : unescape care s = .ok (c, rest)) :
    spelling care (some '\\' :: s) =
      (spelling care rest).map fun (cs, rest) => (cs.map (c :: ·), rest) := by
  rw [spelling]
  simp only [Char.reduceBEq, Bool.false_eq_true, if_false, if_true]
  split
  · rename_i d rest' hd
    rw [h] at hd
    cases hd
    rfl
  · rename_i f hf
    rw [h] at hf
    cases hf

theorem spelling_plain {care : Care} {s : Source} {c : Char} (hquote : c ≠ '"')
    (hslash : c ≠ '\\') (hcontrol : ¬ c.toNat < 0x20) :
    spelling care (some c :: s) =
      (spelling care s).map fun (cs, rest) => (cs.map (c :: ·), rest) := by
  rw [spelling]
  simp [hquote, hslash, hcontrol]

/-- Whatever stands for a character inside quotes is read back as that character. -/
theorem spelling_escape (care : Care) (c : Char) (rest : Source) :
    spelling care (Source.ofChars (escape c) ++ rest) =
      (spelling care rest).map fun (cs, rest) => (cs.map (c :: ·), rest) := by
  unfold escape
  by_cases hquote : c = '"'
  · subst hquote
    exact spelling_backslash rfl
  by_cases hslash : c = '\\'
  · subst hslash
    exact spelling_backslash rfl
  by_cases hnewline : c = '\n'
  · subst hnewline
    exact spelling_backslash rfl
  by_cases hreturn : c = '\r'
  · subst hreturn
    exact spelling_backslash rfl
  by_cases htab : c = '\t'
  · subst htab
    exact spelling_backslash rfl
  by_cases hback : c = '\x08'
  · subst hback
    exact spelling_backslash rfl
  by_cases hfeed : c = '\x0c'
  · subst hfeed
    exact spelling_backslash rfl
  simp only [beq_iff_eq, hquote, hslash, hnewline, hreturn, htab, hback, hfeed, if_false]
  by_cases hcontrol : c.toNat < 0x20
  · rw [if_pos hcontrol]
    exact spelling_backslash (unescape_control hcontrol rest)
  · rw [if_neg hcontrol]
    exact spelling_plain hquote hslash hcontrol

theorem spelling_quote (care : Care) (s : List Char) (rest : Source) :
    spelling care (Source.ofChars (s.flatMap escape ++ ['"']) ++ rest) = .ok (some s, rest) := by
  induction s with
  | nil =>
    show spelling care (some '"' :: rest) = _
    rw [spelling]
    rfl
  | cons c s ih =>
    rw [List.flatMap_cons, List.append_assoc, Source.ofChars_append, List.append_assoc,
      spelling_escape, ih]
    rfl

theorem characters_quote (care : Care) (s : List Char) (rest : Source) :
    characters care (Source.ofChars (s.flatMap escape ++ ['"']) ++ rest) = .ok (s, rest) := by
  rw [characters, spelling_quote]

theorem ofChars_quote (s : List Char) (rest : Source) :
    Source.ofChars (quote s) ++ rest =
      some '"' :: (Source.ofChars (s.flatMap escape ++ ['"']) ++ rest) := rfl

theorem mark_self {c : Char} (h : isBlank (some c) = false) (rest : Source) :
    mark c (some c :: rest) = .ok rest := by
  rw [mark, skipBlanks_of_not_blank h]
  simp

theorem key_quote (care : Care) (name : String) (rest : Source) :
    key care (Source.ofChars (quote name.toList) ++ rest) = .ok (name, rest) := by
  rw [ofChars_quote, key, mark_self (by decide)]
  simp only [characters_quote]
  rw [Except.map, String.ofList_toList]

/-! ## Words -/

theorem word_self (w : List Char) (rest : Source) : word w (Source.ofChars w ++ rest) = .ok rest := by
  induction w with
  | nil => rfl
  | cons c w ih =>
    show (if some c == some c then word w (Source.ofChars w ++ rest) else _) = _
    rw [beq_self_eq_true, if_pos rfl, ih]

end Json
end BotFleet
