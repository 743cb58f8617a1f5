import Mathlib.Data.List.DropRight
import BotFleet.Text.Blank

/-
What is left of a text when the blanks around it are trimmed.

Trimming takes away blanks at both ends and nothing else, and it goes on until there are no
more.  So a text is what is left of another one exactly if it neither begins nor ends with a
blank and the other one is the text between blanks, which is `trim_eq_iff`.
-/

namespace BotFleet
namespace Text

/-! ## The end of a list -/

section Ends

variable {α : Type} {p : α → Bool} {a b : List α}

theorem rdropWhile_append_of_forall (h : ∀ x ∈ b, p x = true) :
    (a ++ b).rdropWhile p = a.rdropWhile p := by
  rw [List.rdropWhile, List.reverse_append,
    List.dropWhile_append_of_pos fun x hx => h x (List.mem_reverse.mp hx)]
  rfl

theorem rdropWhile_append_of_ne_nil (h : b.rdropWhile p ≠ []) :
    (a ++ b).rdropWhile p = a ++ b.rdropWhile p := by
  have hleft : (b.reverse.dropWhile p).isEmpty = false := by
    rw [List.isEmpty_eq_false_iff, ne_eq, ← List.reverse_eq_nil_iff]
    exact h
  rw [List.rdropWhile, List.reverse_append, List.dropWhile_append, hleft, if_neg (by simp),
    List.reverse_append, List.reverse_reverse]
  rfl

end Ends

/-! ## Trimming -/

/-- All characters are blanks. -/
def Blank (s : List Char) : Prop := ∀ c ∈ s, isBlank c = true

/-- The text neither begins nor ends with a blank. -/
structure Solid (s : List Char) : Prop where
  head : ∀ c ∈ s.head?, isBlank c = false
  last : ∀ c ∈ s.getLast?, isBlank c = false

/-- The first text with blanks around it is the second one. -/
def Between (t s : List Char) : Prop :=
  ∃ left right, s = left ++ t ++ right ∧ Blank left ∧ Blank right

theorem trim_eq_rdropWhile (s : List Char) :
    trim s = (s.dropWhile isBlank).rdropWhile isBlank := rfl

theorem blank_takeWhile (s : List Char) : Blank (s.takeWhile isBlank) :=
  fun _ => List.mem_takeWhile_imp

theorem between_trim (s : List Char) : Between (trim s) s := by
  refine ⟨s.takeWhile isBlank, (s.dropWhile isBlank).rtakeWhile isBlank, ?_, blank_takeWhile s,
    fun _ => List.mem_rtakeWhile_imp⟩
  rw [trim_eq_rdropWhile, List.append_assoc, List.rdropWhile_append_rtakeWhile,
    List.takeWhile_append_dropWhile]

theorem solid_trim (s : List Char) : Solid (trim s) where
  head := by
    intro c hc
    -- What is left begins as it did before its end was trimmed.
    obtain ⟨rest, hrest⟩ := List.rdropWhile_prefix isBlank (s.dropWhile isBlank)
    have hhead : (s.dropWhile isBlank).head? = some c := by
      rw [← hrest, List.head?_append, ← trim_eq_rdropWhile, hc]
      rfl
    have hnot := List.head?_dropWhile_not isBlank s
    rw [hhead] at hnot
    exact hnot
  last := by
    intro c hc
    obtain ⟨hne, rfl⟩ := List.mem_getLast?_eq_getLast hc
    have hnot := List.rdropWhile_last_not isBlank (s.dropWhile isBlank) hne
    exact Bool.eq_false_iff.mpr hnot

theorem dropWhile_isBlank_of_solid {t : List Char} (h : Solid t) (hne : t ≠ []) (s : List Char) :
    (t ++ s).dropWhile isBlank = t ++ s := by
  cases t with
  | nil => exact absurd rfl hne
  | cons c cs => exact List.dropWhile_cons_of_neg (by simp [h.head c rfl])

theorem rdropWhile_isBlank_of_solid {t s : List Char} (h : Solid t) (hs : Blank s) :
    (t ++ s).rdropWhile isBlank = t := by
  rw [rdropWhile_append_of_forall hs]
  refine List.rdropWhile_eq_self_iff.mpr fun hne => ?_
  rw [h.last _ (List.getLast?_eq_some_getLast hne)]
  exact Bool.false_ne_true

theorem trim_of_between {s t : List Char} (hsolid : Solid t) (h : Between t s) : trim s = t := by
  obtain ⟨left, right, rfl, hleft, hright⟩ := h
  by_cases hne : t = []
  · subst hne
    rw [trim_eq_nil_iff, List.append_nil]
    exact fun c hc => (List.mem_append.mp hc).elim (hleft c) (hright c)
  · rw [trim_eq_rdropWhile, List.append_assoc, List.dropWhile_append_of_pos hleft,
      dropWhile_isBlank_of_solid hsolid hne, rdropWhile_isBlank_of_solid hsolid hright]

theorem trim_eq_iff {s t : List Char} : trim s = t ↔ Solid t ∧ Between t s := by
  constructor
  · rintro rfl
    exact ⟨solid_trim s, between_trim s⟩
  · rintro ⟨hsolid, hbetween⟩
    exact trim_of_between hsolid hbetween

end Text
end BotFleet
