import BotFleet.Store.Table

/-
Tables whose identifiers increase.

A table that has only been changed by the functions of `Table` lists its rows by
strictly increasing identifier, so each identifier stands for one row at most.
`nextId?` finds an identifier that no row has, or none at all, and that keeps the
order when rows are added.
-/

namespace BotFleet
namespace Table

variable {α : Type} [Row α]

/-- The rows have strictly increasing identifiers. -/
def Sorted (rows : List α) : Prop := rows.Pairwise fun a b => Row.key a < Row.key b

theorem has_iff {id : Id} {rows : List α} : has id rows = true ↔ ∃ r ∈ rows, Row.key r = id := by
  simp only [has, find?, List.find?_isSome, beq_iff_eq]

theorem has_eq_false_iff {id : Id} {rows : List α} :
    has id rows = false ↔ ∀ r ∈ rows, Row.key r ≠ id := by
  rw [← Bool.not_eq_true, has_iff]
  simp only [not_exists, not_and, ne_eq]

theorem has_of_find? {id : Id} {rows : List α} {r : α} (h : find? id rows = some r) :
    has id rows = true := by
  rw [has, h]
  rfl

theorem has_of_find?_eq_none {id : Id} {rows : List α} (h : find? id rows = none) :
    has id rows = false := by
  rw [has, h]
  rfl

theorem key_of_find? {id : Id} {rows : List α} {r : α} (h : find? id rows = some r) :
    Row.key r = id := by
  have hkey := List.find?_some h
  exact beq_iff_eq.mp hkey

theorem mem_of_find? {id : Id} {rows : List α} {r : α} (h : find? id rows = some r) : r ∈ rows :=
  List.mem_of_find?_eq_some h

/-- In a sorted table an identifier leads to the one row that has it. -/
theorem find?_eq_some_iff {id : Id} {rows : List α} {r : α} (hs : Sorted rows) :
    find? id rows = some r ↔ r ∈ rows ∧ Row.key r = id := by
  constructor
  · exact fun h => ⟨mem_of_find? h, key_of_find? h⟩
  · rintro ⟨hr, rfl⟩
    induction rows with
    | nil => cases hr
    | cons a rows ih =>
      obtain ⟨ha, hs⟩ := List.pairwise_cons.mp hs
      rcases List.mem_cons.mp hr with rfl | hr
      · simp [find?]
      · have hlt : (Row.key a).val < (Row.key r).val := ha r hr
        have hne : Row.key a ≠ Row.key r := by
          intro he
          rw [he] at hlt
          omega
        have hfind := ih hs hr
        simpa [find?, List.find?_cons, hne] using hfind

theorem eq_of_key_eq {rows : List α} {r r' : α} (hs : Sorted rows) (hr : r ∈ rows) (hr' : r' ∈ rows)
    (h : Row.key r = Row.key r') : r = r' := by
  have hfind : find? (Row.key r') rows = some r := (find?_eq_some_iff hs).mpr ⟨hr, h⟩
  have hfind' : find? (Row.key r') rows = some r' := (find?_eq_some_iff hs).mpr ⟨hr', rfl⟩
  exact Option.some.inj (hfind.symm.trans hfind')

theorem nodup_keys {rows : List α} (h : Sorted rows) : (rows.map Row.key).Nodup := by
  rw [List.Nodup, List.pairwise_map]
  refine List.Pairwise.imp ?_ h
  intro a b hab he
  have hlt : (Row.key a).val < (Row.key b).val := hab
  rw [he] at hlt
  omega

/-! ## Adding, altering and removing rows -/

theorem mem_insert {row r : α} {rows : List α} : r ∈ insert row rows ↔ r = row ∨ r ∈ rows := by
  induction rows with
  | nil => simp [insert]
  | cons a rows ih =>
    rw [insert]
    split
    · simp
    · rw [List.mem_cons, ih, List.mem_cons]
      exact or_left_comm

theorem mem_erase {id : Id} {r : α} {rows : List α} :
    r ∈ erase id rows ↔ r ∈ rows ∧ Row.key r ≠ id := by
  simp [erase]

theorem has_insert {row : α} {id : Id} {rows : List α} :
    has id (insert row rows) = true ↔ Row.key row = id ∨ has id rows = true := by
  simp only [has_iff, mem_insert, or_and_right, exists_or, exists_eq_left]

theorem has_erase {id other : Id} {rows : List α} :
    has other (erase id rows) = true ↔ other ≠ id ∧ has other rows = true := by
  rw [has_iff, has_iff]
  constructor
  · rintro ⟨r, hr, rfl⟩
    obtain ⟨hm, hne⟩ := mem_erase.mp hr
    exact ⟨hne, r, hm, rfl⟩
  · rintro ⟨hne, r, hm, rfl⟩
    exact ⟨r, mem_erase.mpr ⟨hm, hne⟩, rfl⟩

/-- An identifier that no row has leaves nothing to remove. -/
theorem erase_of_not_has {id : Id} {rows : List α} (h : has id rows = false) :
    erase id rows = rows := by
  rw [erase, List.filter_eq_self]
  intro r hr
  exact bne_iff_ne.mpr (has_eq_false_iff.mp h r hr)

section Update

variable {change : α → α} (hkey : ∀ r, Row.key (change r) = Row.key r)

include hkey

theorem key_updated (id : Id) (r : α) :
    Row.key (if Row.key r == id then change r else r) = Row.key r := by
  split
  · exact hkey r
  · rfl

theorem has_update (id other : Id) (rows : List α) :
    has other (update id change rows) = has other rows := by
  rw [Bool.eq_iff_iff, has_iff, has_iff, update]
  constructor
  · rintro ⟨r, hr, hid⟩
    obtain ⟨a, ha, rfl⟩ := List.mem_map.mp hr
    exact ⟨a, ha, (key_updated hkey id a).symm.trans hid⟩
  · rintro ⟨a, ha, hid⟩
    exact ⟨_, List.mem_map_of_mem ha, (key_updated hkey id a).trans hid⟩

theorem keys_update (id : Id) (rows : List α) :
    (update id change rows).map Row.key = rows.map Row.key := by
  rw [update, List.map_map]
  exact List.map_congr_left fun r _ => key_updated hkey id r

/-- Rows with other identifiers stay, and none are added. -/
theorem mem_update_of_ne {id : Id} {r : α} {rows : List α} (hne : Row.key r ≠ id) :
    r ∈ update id change rows ↔ r ∈ rows := by
  rw [update, List.mem_map]
  constructor
  · intro h
    obtain ⟨a, ha, rfl⟩ := h
    have hid : Row.key a ≠ id := by rwa [key_updated hkey] at hne
    rwa [if_neg (by simpa using hid)]
  · intro hr
    exact ⟨r, hr, if_neg (by simpa using hne)⟩

/-- Two changes of a row in turn are one change of it. -/
theorem update_update (id : Id) (later : α → α) (rows : List α) :
    update id later (update id change rows) = update id (later ∘ change) rows := by
  rw [update, update, List.map_map, update]
  refine List.map_congr_left fun r _ => ?_
  by_cases hid : Row.key r = id
  · simp [hkey, hid]
  · simp [hid]

theorem sorted_update {id : Id} {rows : List α} (h : Sorted rows) :
    Sorted (update id change rows) := by
  rw [Sorted, update, List.pairwise_map]
  refine List.Pairwise.imp ?_ h
  intro a b hab
  rw [key_updated hkey, key_updated hkey]
  exact hab

end Update

theorem sorted_erase {id : Id} {rows : List α} (h : Sorted rows) : Sorted (erase id rows) :=
  List.Pairwise.filter _ h

theorem sorted_insert {row : α} {rows : List α} (h : Sorted rows)
    (hfresh : has (Row.key row) rows = false) : Sorted (insert row rows) := by
  induction rows with
  | nil => exact List.pairwise_singleton _ _
  | cons a rows ih =>
    obtain ⟨ha, hrows⟩ := List.pairwise_cons.mp h
    have hne := has_eq_false_iff.mp hfresh
    rw [insert]
    split
    · rename_i hlt
      refine List.pairwise_cons.mpr ⟨?_, h⟩
      intro r hr
      rcases List.mem_cons.mp hr with rfl | hr
      · exact hlt
      · have hlt' : (Row.key row).val < (Row.key a).val := hlt
        have har : (Row.key a).val < (Row.key r).val := ha r hr
        show (Row.key row).val < (Row.key r).val
        omega
    · rename_i hnlt
      have hrest : has (Row.key row) rows = false :=
        has_eq_false_iff.mpr fun r hr => hne r (List.mem_cons_of_mem _ hr)
      refine List.pairwise_cons.mpr ⟨?_, ih hrows hrest⟩
      intro r hr
      rcases mem_insert.mp hr with rfl | hr
      · have hle : ¬ (Row.key r).val < (Row.key a).val := hnlt
        have hval : (Row.key a).val ≠ (Row.key r).val :=
          fun he => hne a List.mem_cons_self (Ranged.ext he)
        show (Row.key a).val < (Row.key r).val
        omega
      · exact ha r hr

/-! ## Names

A name is a part of a row that no two rows of a table share. -/

section Name

variable {β : Type} {name : α → β}

theorem perm_insert (row : α) (rows : List α) : (insert row rows).Perm (row :: rows) := by
  induction rows with
  | nil => exact List.Perm.refl _
  | cons a rows ih =>
    rw [insert]
    split
    · exact List.Perm.refl _
    · exact (ih.cons a).trans (List.Perm.swap row a rows)

theorem nodup_insert {row : α} {rows : List α} (h : (rows.map name).Nodup)
    (hfree : ∀ r ∈ rows, name r ≠ name row) : ((insert row rows).map name).Nodup := by
  rw [((perm_insert row rows).map name).nodup_iff, List.map_cons, List.nodup_cons]
  refine ⟨?_, h⟩
  intro hm
  obtain ⟨r, hr, he⟩ := List.mem_map.mp hm
  exact hfree r hr he

theorem nodup_erase {id : Id} {rows : List α} (h : (rows.map name).Nodup) :
    ((erase id rows).map name).Nodup :=
  h.sublist (List.filter_sublist.map name)

/-- An altered row may take any name that the other rows leave. -/
theorem nodup_update {id : Id} {change : α → α} {rows : List α} (hs : Sorted rows)
    (h : (rows.map name).Nodup)
    (hfree : ∀ r ∈ rows, Row.key r = id → ∀ a ∈ rows, Row.key a ≠ id → name a ≠ name (change r)) :
    ((update id change rows).map name).Nodup := by
  have hpairs := List.pairwise_map.mp h
  rw [update, List.map_map, List.Nodup, List.pairwise_map]
  refine List.Pairwise.imp_of_mem ?_ (hs.and hpairs)
  rintro a b ha hb ⟨hlt, hne⟩
  have hkeys : Row.key a ≠ Row.key b := by
    intro he
    have hlt' : (Row.key a).val < (Row.key b).val := hlt
    rw [he] at hlt'
    omega
  simp only [Function.comp_apply]
  by_cases hai : Row.key a = id
  · have hbi : Row.key b ≠ id := fun he => hkeys (hai.trans he.symm)
    simpa [hai, hbi] using (hfree a ha hai b hb hbi).symm
  · by_cases hbi : Row.key b = id
    · simpa [hai, hbi] using hfree b hb hbi a ha hai
    · simpa [hai, hbi] using hne

end Name

/-! ## New identifiers -/

theorem le_laterId_left (a b : Id) : a.val ≤ (laterId a b).val := by
  unfold laterId
  split
  · rename_i h
    exact Int.le_of_lt h
  · exact Int.le_refl _

theorem le_laterId_right (a b : Id) : b.val ≤ (laterId a b).val := by
  unfold laterId
  split
  · exact Int.le_refl _
  · rename_i h
    exact Int.not_lt.mp h

theorem le_latest {rows : List α} {start id : Id} :
    id.val ≤ start.val ∨ (∃ r ∈ rows, id.val ≤ (Row.key r).val) →
      id.val ≤ (rows.foldl (fun id r => laterId id (Row.key r)) start).val := by
  induction rows generalizing start with
  | nil =>
    rintro (h | ⟨r, hr, -⟩)
    · exact h
    · cases hr
  | cons a rows ih =>
    intro h
    rw [List.foldl_cons]
    apply ih
    rcases h with h | ⟨r, hr, h⟩
    · exact .inl (Int.le_trans h (le_laterId_left _ _))
    · rcases List.mem_cons.mp hr with rfl | hr
      · exact .inl (Int.le_trans h (le_laterId_right _ _))
      · exact .inr ⟨r, hr, h⟩

/-- A new identifier belongs to no row. -/
theorem not_has_of_nextId? {rows : List α} {id : Id} (h : nextId? rows = some id) :
    has id rows = false := by
  cases rows with
  | nil => rfl
  | cons a rest =>
    simp only [nextId?] at h
    split at h
    · rename_i id' hid
      cases h
      have hval := Ranged.val_of_ofInt? hid
      refine has_eq_false_iff.mpr fun r hr he => ?_
      have hle : (Row.key r).val ≤
          (rest.foldl (fun id r => laterId id (Row.key r)) (Row.key a)).val := by
        apply le_latest
        rcases List.mem_cons.mp hr with rfl | hr
        · exact .inl (Int.le_refl _)
        · exact .inr ⟨r, hr, Int.le_refl _⟩
      rw [he] at hle
      omega
    · have hfree := List.find?_some h
      simpa using hfree

end Table
end BotFleet
