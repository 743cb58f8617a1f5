import BotFleet.Json.Shape
import BotFleet.Proofs.Json.Number

/-
Reading back lists and objects.

`Reads r j a` says that the reader `r` takes the text of the value `j` off the front
of any text that may follow a value, and yields `a`.  A list is read back if its
items are.  An object is read field by field into a state, so `Fills` follows that
state through the fields in the order in which they are written.
-/

namespace BotFleet
namespace Json

def Reads {α : Type} (r : Reader α) (j : Json) (a : α) : Prop :=
  ∀ rest, Ends rest → r.run (Source.ofChars j.render ++ rest) = .ok (a, rest)

theorem Reads.map {α β : Type} {r : Reader α} {j : Json} {a : α} (f : α → β) (h : Reads r j a) :
    Reads (r.map f) j (f a) := by
  intro rest hrest
  show (r.run _).map _ = _
  rw [h rest hrest]
  rfl

theorem Reads.filterMap {α β : Type} {r : Reader α} {j : Json} {a : α} {f : α → Option β} {b : β}
    (h : Reads r j a) (hb : f a = some b) : Reads (r.filterMap f) j b := by
  intro rest hrest
  simp only [Reader.filterMap, h rest hrest, hb]

/-- A whole text that is the text of a value. -/
theorem Reads.parseSource {α : Type} {r : Reader α} {j : Json} {a : α} (h : Reads r j a) :
    r.parseSource (Source.ofChars j.render) = .ok a := by
  have hrun := h [] ends_nil
  rw [List.append_nil] at hrun
  rw [Reader.parseSource, hrun]
  rfl

/-! ## First characters -/

/-- Whether a character begins a value. -/
def Opens (c : Char) : Prop :=
  c = 'n' ∨ c = 't' ∨ c = 'f' ∨ c = '"' ∨ c = '[' ∨ c = '{' ∨ startsNumber c = true

theorem Opens.not_blank {c : Char} (h : Opens c) : isBlank (some c) = false := by
  rcases h with rfl | rfl | rfl | rfl | rfl | rfl | h
  · rfl
  · rfl
  · rfl
  · rfl
  · rfl
  · rfl
  · exact not_blank_of_startsNumber h

theorem Opens.ne_close {c : Char} (h : Opens c) : c ≠ ']' ∧ c ≠ '}' := by
  constructor <;> (rintro rfl; revert h; simp [Opens, startsNumber])

/-- Every value begins as some value does, and only null begins as null does. -/
theorem render_eq_cons (j : Json) :
    ∃ c cs, j.render = c :: cs ∧ Opens c ∧ (c = 'n' → j = .null) := by
  cases j with
  | null => exact ⟨'n', _, rfl, by simp [Opens], fun _ => rfl⟩
  | flag b => cases b <;> simp [render, Opens]
  | int n =>
    obtain ⟨c, cs, hc, hstart⟩ := whole_eq_cons n
    refine ⟨c, cs, hc, by simp [Opens, hstart], ?_⟩
    rintro rfl
    simp [startsNumber] at hstart
  | real x =>
    obtain ⟨c, cs, hc, hstart⟩ := Number.text_eq_cons (Number.readable_ofDouble x)
    refine ⟨c, cs, hc, by simp [Opens, hstart], ?_⟩
    rintro rfl
    simp [startsNumber] at hstart
  | text s => exact ⟨'"', _, rfl, by simp [Opens], fun h => absurd h (by decide)⟩
  | list items => exact ⟨'[', _, rfl, by simp [Opens], fun h => absurd h (by decide)⟩
  | record fields => exact ⟨'{', _, rfl, by simp [Opens], fun h => absurd h (by decide)⟩

theorem runFirst_cons {α : Type} {body : Char → Source → Step α} {c : Char} {s : Source}
    (h : isBlank (some c) = false) : Reader.runFirst body (some c :: s) = body c s := by
  rw [Reader.runFirst, skipBlanks_of_not_blank h]

/-- A value that is written as a number is read as that number. -/
theorem reads_number {j : Json} {n : Number}
    (hstart : ∃ c cs, j.render = c :: cs ∧ startsNumber c = true)
    (h : ∀ rest, Ends rest → number .exact (Source.ofChars j.render ++ rest) = .ok (n, rest)) :
    Reads Reader.anyNumber j n := by
  intro rest hrest
  obtain ⟨c, cs, hc, hstart⟩ := hstart
  have hnumber := h rest hrest
  rw [hc] at hnumber ⊢
  show Reader.runFirst Reader.numberBody (some c :: (Source.ofChars cs ++ rest)) = _
  rw [runFirst_cons (not_blank_of_startsNumber hstart), Reader.numberBody, if_pos hstart]
  exact hnumber

/-! ## What follows an item or a field -/

theorem follow_close {close : Char} (h : isBlank (some close) = false) (rest : Source) :
    follow close (some close :: rest) = .ok (.closed rest) := by
  rw [follow, skipBlanks_of_not_blank h]
  simp

theorem follow_comma (close : Char) (h : close ≠ ',') (rest : Source) :
    follow close (some ',' :: rest) = .ok (.more rest) := by
  rw [follow, skipBlanks_of_not_blank (by decide)]
  simp [h.symm]

theorem closesAtOnce_close {close : Char} (h : isBlank (some close) = false) (rest : Source) :
    closesAtOnce close (some close :: rest) = some rest := by
  rw [closesAtOnce, skipBlanks_of_not_blank h]
  simp

theorem closesAtOnce_of_ne {close c : Char} (hb : isBlank (some c) = false) (h : c ≠ close)
    (rest : Source) : closesAtOnce close (some c :: rest) = none := by
  rw [closesAtOnce, skipBlanks_of_not_blank hb]
  simp [h]

/-! ## Lists -/

section List

variable {α : Type} {r : Reader α} {s t rest : Source} {a : α}

theorem items_closed (hr : r.run s = .ok (a, t)) (hf : follow ']' t = .ok (.closed rest)) :
    Reader.items r s = .ok ([a], rest) := by
  rw [Reader.items]
  split
  · simp_all
  · rename_i a' t' hr'
    rw [hr] at hr'
    cases hr'
    split <;> simp_all

theorem items_more (hr : r.run s = .ok (a, t)) (hf : follow ']' t = .ok (.more rest)) :
    Reader.items r s = (Reader.items r rest).map fun (as, rest) => (a :: as, rest) := by
  rw [Reader.items]
  split
  · simp_all
  · rename_i a' t' hr'
    rw [hr] at hr'
    cases hr'
    split <;> simp_all

theorem ends_renderMoreItems (items : List Json) (rest : Source) :
    Ends (Source.ofChars (renderMoreItems items) ++ rest) := by
  cases items with
  | nil => exact ends_cons (by simp)
  | cons item items => exact ends_cons (by simp)

theorem items_render {f : α → Json} {b : α} {bs : List α}
    (h : ∀ x ∈ b :: bs, Reads r (f x) x) (rest : Source) :
    Reader.items r (Source.ofChars (renderItems ((b :: bs).map f)) ++ rest) =
      .ok (b :: bs, rest) := by
  induction bs generalizing b with
  | nil =>
    have hb := h b List.mem_cons_self _ (ends_renderMoreItems [] rest)
    have hrender : Source.ofChars (renderItems ([b].map f)) ++ rest =
        Source.ofChars (f b).render ++ (Source.ofChars (renderMoreItems []) ++ rest) := by
      rw [← List.append_assoc, ← Source.ofChars_append]
      rfl
    rw [hrender]
    exact items_closed hb (follow_close (by decide) rest)
  | cons b' bs ih =>
    have hb := h b List.mem_cons_self _ (ends_renderMoreItems ((b' :: bs).map f) rest)
    have hrest := ih fun x hx => h x (List.mem_cons_of_mem _ hx)
    have hrender : Source.ofChars (renderItems ((b :: b' :: bs).map f)) ++ rest =
        Source.ofChars (f b).render ++
          (Source.ofChars (renderMoreItems ((b' :: bs).map f)) ++ rest) := by
      rw [← List.append_assoc, ← Source.ofChars_append]
      rfl
    have hfollow := follow_comma ']' (by decide)
      (Source.ofChars (renderItems ((b' :: bs).map f)) ++ rest)
    rw [hrender, items_more hb hfollow, hrest]
    rfl

theorem reads_list {f : α → Json} {as : List α} (h : ∀ x ∈ as, Reads r (f x) x) :
    Reads r.list (.list (as.map f)) as := by
  intro rest _
  show Reader.runFirst (Reader.listBody r)
    (some '[' :: (Source.ofChars (renderItems (as.map f)) ++ rest)) = _
  rw [runFirst_cons (by decide), Reader.listBody, if_pos (beq_self_eq_true _)]
  cases as with
  | nil =>
    have hclose : closesAtOnce ']' (Source.ofChars (renderItems ([].map f)) ++ rest) = some rest :=
      closesAtOnce_close (by decide) rest
    rw [hclose]
  | cons b bs =>
    have hitems := items_render h rest
    obtain ⟨c, cs, hc, hopens, -⟩ := render_eq_cons (f b)
    have hclose : closesAtOnce ']'
        (Source.ofChars (renderItems ((b :: bs).map f)) ++ rest) = none := by
      rw [List.map_cons, renderItems, hc]
      exact closesAtOnce_of_ne hopens.not_blank hopens.ne_close.1 _
    rw [hclose, hitems]

end List

/-! ## Objects -/

section Object

open Reader (Slot)

variable {σ : Type} {slot : String → σ → Slot σ} {u v w : σ} {s t rest : Source}

/-- The text of a value can be passed over where nobody asks for the value. -/
def Skims (j : Json) : Prop :=
  ∀ rest, Ends rest →
    ∃ k, (Reader.any .skimmed).run (Source.ofChars j.render ++ rest) = .ok (k, rest)

/-- What reading the fields of an object in their order makes of a state. -/
inductive Fills (slot : String → σ → Slot σ) : σ → List (String × Json) → σ → Prop
  | nil (u : σ) : Fills slot u [] u
  | known {u v w : σ} {name : String} {j : Json} {r : Reader σ} {fields : List (String × Json)}
    (hslot : slot name u = .free r) (hread : Reads r j v) (h : Fills slot v fields w) :
    Fills slot u ((name, j) :: fields) w
  | unknown {u w : σ} {name : String} {j : Json} {fields : List (String × Json)}
    (hslot : slot name u = .unknown) (hskim : Skims j) (h : Fills slot u fields w) :
    Fills slot u ((name, j) :: fields) w

theorem entries_closed (hr : Reader.entry slot u s = .ok (v, t))
    (hf : follow '}' t = .ok (.closed rest)) : Reader.entries slot u s = .ok (v, rest) := by
  rw [Reader.entries]
  split
  · simp_all
  · rename_i a' t' hr'
    rw [hr] at hr'
    cases hr'
    split <;> simp_all

theorem entries_more (hr : Reader.entry slot u s = .ok (v, t))
    (hf : follow '}' t = .ok (.more rest)) :
    Reader.entries slot u s = Reader.entries slot v rest := by
  rw [Reader.entries]
  split
  · simp_all
  · rename_i a' t' hr'
    rw [hr] at hr'
    cases hr'
    split <;> simp_all

theorem ends_renderMoreFields (fields : List (String × Json)) (rest : Source) :
    Ends (Source.ofChars (renderMoreFields fields) ++ rest) := by
  cases fields with
  | nil => exact ends_cons (by simp)
  | cons field fields => exact ends_cons (by simp)

/-- The text of a field. -/
theorem ofChars_field (name : String) (j : Json) (rest : Source) :
    Source.ofChars (quote name.toList ++ ':' :: j.render) ++ rest =
      Source.ofChars (quote name.toList) ++ (some ':' :: (Source.ofChars j.render ++ rest)) := by
  rw [Source.ofChars_append, List.append_assoc]
  rfl

theorem entry_known {name : String} {j : Json} {r : Reader σ} (hslot : slot name u = .free r)
    (hread : Reads r j v) (hrest : Ends rest) :
    Reader.entry slot u (Source.ofChars (quote name.toList ++ ':' :: j.render) ++ rest) =
      .ok (v, rest) := by
  rw [ofChars_field, Reader.entry, key_quote]
  simp only [hslot, mark_self (c := ':') (by decide), hread rest hrest]

theorem entry_unknown {name : String} {j : Json} (hslot : slot name u = .unknown)
    (hskim : Skims j) (hrest : Ends rest) :
    Reader.entry slot u (Source.ofChars (quote name.toList ++ ':' :: j.render) ++ rest) =
      .ok (u, rest) := by
  obtain ⟨k, hk⟩ := hskim rest hrest
  rw [ofChars_field, Reader.entry, key_quote]
  simp only [hslot, mark_self (c := ':') (by decide), hk]
  rfl

theorem ofChars_renderFields (name : String) (j : Json) (fields : List (String × Json))
    (rest : Source) :
    Source.ofChars (renderFields ((name, j) :: fields)) ++ rest =
      Source.ofChars (quote name.toList ++ ':' :: j.render) ++
        (Source.ofChars (renderMoreFields fields) ++ rest) := by
  rw [← List.append_assoc, ← Source.ofChars_append, renderFields, List.append_assoc]
  rfl

/-- What follows one field is the end of the object or its other fields. -/
theorem entries_field {name : String} {j : Json} {fields : List (String × Json)}
    (hentry : Reader.entry slot u (Source.ofChars (quote name.toList ++ ':' :: j.render) ++
        (Source.ofChars (renderMoreFields fields) ++ rest)) =
      .ok (v, Source.ofChars (renderMoreFields fields) ++ rest))
    (h : Fills slot v fields w)
    (ih : fields ≠ [] →
      Reader.entries slot v (Source.ofChars (renderFields fields) ++ rest) = .ok (w, rest)) :
    Reader.entries slot u (Source.ofChars (renderFields ((name, j) :: fields)) ++ rest) =
      .ok (w, rest) := by
  rw [ofChars_renderFields]
  cases fields with
  | nil =>
    cases h
    exact entries_closed hentry (follow_close (by decide) rest)
  | cons field fields =>
    have hfollow := follow_comma '}' (by decide)
      (Source.ofChars (renderFields (field :: fields)) ++ rest)
    rw [entries_more hentry hfollow]
    exact ih (List.cons_ne_nil _ _)

theorem Fills.entries {fields : List (String × Json)} (h : Fills slot u fields w)
    (hne : fields ≠ []) (rest : Source) :
    Reader.entries slot u (Source.ofChars (renderFields fields) ++ rest) = .ok (w, rest) := by
  induction h with
  | nil => exact absurd rfl hne
  | @known u v w name j r fields hslot hread h ih =>
    exact entries_field (entry_known hslot hread (ends_renderMoreFields fields rest)) h ih
  | @unknown u w name j fields hslot hskim h ih =>
    exact entries_field (entry_unknown hslot hskim (ends_renderMoreFields fields rest)) h ih

theorem Fills.objectBody {fields : List (String × Json)} (h : Fills slot u fields w)
    (rest : Source) :
    Reader.objectBody slot u (Source.ofChars (renderFields fields) ++ rest) = .ok (w, rest) := by
  rw [Reader.objectBody]
  cases fields with
  | nil =>
    cases h
    have hclose : closesAtOnce '}' (Source.ofChars (renderFields []) ++ rest) = some rest :=
      closesAtOnce_close (by decide) rest
    rw [hclose]
  | cons field fields =>
    have hclose : closesAtOnce '}' (Source.ofChars (renderFields (field :: fields)) ++ rest) =
        none := closesAtOnce_of_ne (c := '"') (by decide) (by decide) _
    rw [hclose]
    exact h.entries (List.cons_ne_nil _ _) rest

end Object

end Json
end BotFleet
