/-
Blank characters.

`isBlank` holds of the characters with the property White_Space.  A field is
empty in the sense of this library when nothing is left after its blanks are
trimmed, and a number in a setting may stand between blanks.
-/

namespace BotFleet
namespace Text

/-- The ranges of code points with the property White_Space. -/
def blankRanges : List (Nat × Nat) :=
  [(0x9, 0xD), (0x20, 0x20), (0x85, 0x85), (0xA0, 0xA0), (0x1680, 0x1680), (0x2000, 0x200A),
   (0x2028, 0x2029), (0x202F, 0x202F), (0x205F, 0x205F), (0x3000, 0x3000)]

def isBlank (c : Char) : Bool :=
  blankRanges.any fun (lo, hi) => lo ≤ c.toNat && c.toNat ≤ hi

def trimLeft (s : List Char) : List Char := s.dropWhile isBlank

def trim (s : List Char) : List Char := ((trimLeft s).reverse.dropWhile isBlank).reverse

theorem trim_eq_nil_iff (s : List Char) : trim s = [] ↔ ∀ c ∈ s, isBlank c = true := by
  have key (l : List Char) : l.dropWhile isBlank = [] ↔ ∀ c ∈ l, isBlank c = true := by
    induction l with
    | nil => simp
    | cons c l ih => by_cases h : isBlank c = true <;> simp [h, ih]
  rw [trim, List.reverse_eq_nil_iff, key]
  constructor
  · intro h
    refine (key s).1 (Decidable.byContradiction fun hne => ?_)
    have hhead := List.head_dropWhile_not isBlank hne
    rw [h _ (List.mem_reverse.2 (List.head_mem hne))] at hhead
    cases hhead
  · intro h c hc
    exact h c ((List.dropWhile_suffix isBlank).subset (List.mem_reverse.1 hc))

end Text
end BotFleet
