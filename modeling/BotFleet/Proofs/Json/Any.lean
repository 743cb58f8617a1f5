import BotFleet.Proofs.Json.RoundTrip

/-
Reading values that nobody asked for.

The reader of any value looks at the first character to tell what comes.  Texts and
whole numbers are read back at every depth, and lists of them one level further
down, so fields that hold such values can be passed over.
-/

namespace BotFleet
namespace Json

theorem anyWithin_run (care : Care) (depth : Nat) :
    ∃ inner, (Reader.anyWithin care depth).run = Reader.runFirst (Reader.anyBody care inner) := by
  cases depth with
  | zero => exact ⟨none, rfl⟩
  | succ depth => exact ⟨some (Reader.anyWithin care depth), rfl⟩

theorem anyWithin_text (care : Care) (depth : Nat) (t : String) :
    Reads (Reader.anyWithin care depth) (.text t) (.text t) := by
  intro rest _
  obtain ⟨inner, hrun⟩ := anyWithin_run care depth
  rw [hrun]
  show Reader.runFirst _ (Source.ofChars (quote t.toList) ++ rest) = _
  rw [ofChars_quote, runFirst_cons (by decide), Reader.anyBody.eq_def, if_neg (by decide),
    if_neg (by decide), if_pos (by decide), characters_quote]
  show Except.ok (Json.text (String.ofList t.toList), rest) = _
  rw [String.ofList_toList]

theorem anyWithin_int (care : Care) (depth : Nat) {n : Int} (h : FitsWord n) :
    Reads (Reader.anyWithin care depth) (.int n) (.int n) := by
  intro rest hrest
  obtain ⟨inner, hrun⟩ := anyWithin_run care depth
  obtain ⟨c, cs, hc, hstart⟩ := whole_eq_cons n
  have hnumber := number_whole care h hrest
  have hne : c ≠ '[' ∧ c ≠ '{' ∧ c ≠ '"' := by
    refine ⟨?_, ?_, ?_⟩ <;> (rintro rfl; simp [startsNumber] at hstart)
  rw [hrun]
  show Reader.runFirst _ (Source.ofChars (Numeral.whole n) ++ rest) = _
  rw [hc] at hnumber ⊢
  show Reader.runFirst _ (some c :: (Source.ofChars cs ++ rest)) = _
  rw [runFirst_cons (not_blank_of_startsNumber hstart), Reader.anyBody.eq_def]
  simp only [beq_iff_eq, hne, if_false, hstart, if_true]
  rw [show number care (some c :: (Source.ofChars cs ++ rest)) = _ from hnumber]
  show Except.ok (Reader.ofNumber (Number.ofWhole n), rest) = _
  rw [Reader.ofNumber, Number.toInt?_ofWhole h]

theorem anyWithin_list {care : Care} {depth : Nat} {items : List Json}
    (h : ∀ item ∈ items, Reads (Reader.anyWithin care depth) item item) :
    Reads (Reader.anyWithin care (depth + 1)) (.list items) (.list items) := by
  intro rest hrest
  have hlist := reads_list h rest hrest
  rw [List.map_id'] at hlist
  show Reader.runFirst (Reader.anyBody care (some (Reader.anyWithin care depth)))
    (some '[' :: (Source.ofChars (renderItems items) ++ rest)) = _
  have hbody : Reader.listBody (Reader.anyWithin care depth) '['
      (Source.ofChars (renderItems items) ++ rest) = .ok (items, rest) := hlist
  rw [runFirst_cons (by decide), Reader.anyBody, if_pos (by decide)]
  simp only [hbody]
  rfl

theorem skims_of_anyWithin {j : Json}
    (h : ∀ depth, Reads (Reader.anyWithin .skimmed (depth + 1)) j j) : Skims j := by
  intro rest hrest
  obtain ⟨c, cs, hc, -, -⟩ := render_eq_cons j
  have hlength : (Source.ofChars j.render ++ rest).length =
      (Source.ofChars cs ++ rest).length + 1 := by
    rw [hc]
    rfl
  refine ⟨j, ?_⟩
  show (Reader.anyWithin .skimmed (Source.ofChars j.render ++ rest).length).run _ = _
  rw [hlength]
  exact h _ rest hrest

theorem skims_text (t : String) : Skims (.text t) :=
  skims_of_anyWithin fun depth => anyWithin_text .skimmed (depth + 1) t

theorem skims_int {n : Int} (h : FitsWord n) : Skims (.int n) :=
  skims_of_anyWithin fun depth => anyWithin_int .skimmed (depth + 1) h

theorem skims_texts (ts : List String) : Skims (.list (ts.map Json.text)) := by
  refine skims_of_anyWithin fun depth => anyWithin_list ?_
  intro item hitem
  obtain ⟨t, -, rfl⟩ := List.mem_map.mp hitem
  exact anyWithin_text .skimmed depth t

end Json
end BotFleet
