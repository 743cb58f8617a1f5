import BotFleet.Ranged

/-
Tables of rows with identifiers.

A table is a list of rows by increasing identifier.  The functions here keep it
so, and each has a lemma on what it does to `find?`, the view that everything
else is stated through.
-/

namespace BotFleet

/-- A row that is known by an identifier. -/
class Row (α : Type) where
  key : α → Id

namespace Table

variable {α : Type} [Row α]

def find? (id : Id) (rows : List α) : Option α := rows.find? fun r => Row.key r == id

def has (id : Id) (rows : List α) : Bool := (find? id rows).isSome

def insert (row : α) : List α → List α
  | [] => [row]
  | r :: rows => if Row.key row < Row.key r then row :: r :: rows else r :: insert row rows

def update (id : Id) (change : α → α) (rows : List α) : List α :=
  rows.map fun r => if Row.key r == id then change r else r

def erase (id : Id) (rows : List α) : List α := rows.filter fun r => Row.key r != id

/-! ## New identifiers -/

def lastId : Id := ⟨9223372036854775807, by decide⟩

def firstId : Id := ⟨1, by decide⟩

/-- The first of some candidates that no row has, if they are not all taken. -/
def freeId? (rows : List α) : Option Id :=
  let candidates : List Id :=
    (List.range (rows.length + 1)).map fun (n : Nat) => .clamp _ _ (by decide) (n + 1)
  candidates.find? fun id => !has id rows

def laterId (a b : Id) : Id := if a < b then b else a

/-- The identifier of a new row: one above the greatest, and 1 in an empty table.
Where the greatest identifier is taken any free one will do, if there is one. -/
def nextId? (rows : List α) : Option Id :=
  match rows with
  | [] => some firstId
  | r :: rest =>
    let top := rest.foldl (fun id r => laterId id (Row.key r)) (Row.key r)
    match Ranged.ofInt? _ _ (top.val + 1) with
    | some id => some id
    | none => freeId? (r :: rest)

/-! ## What the functions do to the view -/

theorem find?_insert (row : α) (rows : List α) (id : Id) (h : has (Row.key row) rows = false) :
    find? id (insert row rows) =
      if Row.key row = id then some row else find? id rows := by
  induction rows with
  | nil =>
    by_cases hid : Row.key row = id <;> simp [find?, insert, hid]
  | cons r rows ih =>
    have hr : Row.key r ≠ Row.key row := by
      intro he
      simp [has, find?, he] at h
    have hrows : has (Row.key row) rows = false := by
      simpa [has, find?, List.find?_cons, hr] using h
    by_cases hlt : Row.key row < Row.key r
    · rw [insert, if_pos hlt, find?, List.find?_cons]
      cases hid : Row.key row == id <;> simp_all [find?]
    · rw [insert, if_neg hlt, find?, List.find?_cons, find?, List.find?_cons]
      cases hrid : Row.key r == id
      · exact ih hrows
      · have hne : Row.key row ≠ id := fun he => hr ((eq_of_beq hrid).trans he.symm)
        simp [hne]

theorem find?_erase (id other : Id) (rows : List α) :
    find? other (erase id rows) = if other = id then none else find? other rows := by
  induction rows with
  | nil => simp [find?, erase]
  | cons r rows ih =>
    by_cases hid : Row.key r = id <;> by_cases ho : Row.key r = other <;>
      simp_all [find?, erase]

theorem find?_update (id other : Id) (change : α → α) (rows : List α)
    (h : ∀ r, Row.key (change r) = Row.key r) :
    find? other (update id change rows) =
      if other = id then (find? other rows).map change else find? other rows := by
  induction rows with
  | nil => simp [find?, update]
  | cons r rows ih =>
    by_cases hid : Row.key r = id <;> by_cases ho : Row.key r = other <;>
      simp_all [find?, update]

end Table
end BotFleet
