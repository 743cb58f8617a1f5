import Mathlib.Data.List.Perm.Subperm
import BotFleet.Proofs.Store.Access

/-
Which calls a store refuses, and why.

A table takes no second row of the same name and a relation no pair that refers to a row
that is missing, and these are the only reasons for a call to fail as long as there are
identifiers to give out.  `Access.Refused` says which call fails for which reason in terms
of the rows that are stored.  A call that says nothing of a reason does not fail for it: an
account keeps its own name, a row that is missing takes no other one's name, and a grant
that is made once more is no fault.

The theorem this file exists for is `refused_exactly`.
-/

namespace BotFleet

/-! ## Identifiers that are left -/

namespace Table

variable {α : Type} [Row α] {rows : List α}

/-- The greatest of some identifiers is one of them. -/
theorem latest_mem (start : Id) (rows : List α) :
    rows.foldl (fun id r => laterId id (Row.key r)) start = start ∨
      has (rows.foldl (fun id r => laterId id (Row.key r)) start) rows = true := by
  induction rows generalizing start with
  | nil => exact .inl rfl
  | cons r rest ih =>
    rw [List.foldl_cons, has_iff]
    rcases ih (laterId start (Row.key r)) with hstart | hrest
    · rw [hstart, laterId]
      split
      · exact .inr ⟨r, List.mem_cons_self, rfl⟩
      · exact .inl rfl
    · obtain ⟨later, hlater, hkey⟩ := has_iff.mp hrest
      exact .inr ⟨later, List.mem_cons_of_mem _ hlater, hkey⟩

/-- One of the rows has the greatest identifier. -/
theorem exists_greatest (r : α) (rest : List α) :
    ∃ a ∈ r :: rest,
      rest.foldl (fun id r => laterId id (Row.key r)) (Row.key r) = Row.key a ∧
        ∀ b ∈ r :: rest, (Row.key b).val ≤ (Row.key a).val := by
  obtain ⟨a, ha, hlatest⟩ : ∃ a ∈ r :: rest,
      rest.foldl (fun id r => laterId id (Row.key r)) (Row.key r) = Row.key a := by
    rcases latest_mem (Row.key r) rest with hfirst | hlater
    · exact ⟨r, List.mem_cons_self, hfirst⟩
    · obtain ⟨later, hin, hkey⟩ := has_iff.mp hlater
      exact ⟨later, List.mem_cons_of_mem _ hin, hkey.symm⟩
  refine ⟨a, ha, hlatest, fun b hb => ?_⟩
  rw [← hlatest]
  apply le_latest
  rcases List.mem_cons.mp hb with rfl | hb
  · exact .inl (Int.le_refl _)
  · exact .inr ⟨b, hb, Int.le_refl _⟩

/-- An identifier with another one above it is not the last one of all. -/
theorem exists_above {top : Id} (h : top ≠ lastId) :
    ∃ id, Ranged.ofInt? _ _ (top.val + 1) = some (id : Id) ∧ id.val = top.val + 1 := by
  have hbelow : top.val ≠ lastId.val := fun heq => h (Ranged.ext heq)
  have hrange := top.property
  have hlast : lastId.val = 9223372036854775807 := rfl
  have hfits : -9223372036854775808 ≤ top.val + 1 ∧ top.val + 1 ≤ 9223372036854775807 := by
    omega
  exact ⟨⟨top.val + 1, hfits⟩, by simp only [Ranged.ofInt?, dif_pos hfits], rfl⟩

/-- As long as the last identifier of all is free, a new row has the one above the greatest,
and the first one in an empty table. -/
theorem exists_nextId? (h : has lastId rows = false) :
    ∃ id, nextId? rows = some id ∧
      (rows = [] ∧ id = firstId ∨
        ∃ a ∈ rows, (∀ b ∈ rows, (Row.key b).val ≤ (Row.key a).val) ∧
          id.val = (Row.key a).val + 1) := by
  cases rows with
  | nil => exact ⟨firstId, rfl, .inl ⟨rfl, rfl⟩⟩
  | cons r rest =>
    obtain ⟨a, ha, hlatest, hgreatest⟩ := exists_greatest r rest
    obtain ⟨id, hid, hval⟩ := exists_above (has_eq_false_iff.mp h a ha)
    refine ⟨id, ?_, .inr ⟨a, ha, hgreatest, hval⟩⟩
    simp only [nextId?, hlatest, hid]

/-- How many positive identifiers there are. -/
def capacity : Nat := 9223372036854775807

theorem range_nonempty : (-9223372036854775808 : Int) ≤ 9223372036854775807 := by decide

/-- The first positive identifiers. -/
def firstIds (n : Nat) : List Id :=
  (List.range n).map fun (k : Nat) => .clamp _ _ range_nonempty (k + 1)

theorem nodup_firstIds {n : Nat} (h : n ≤ capacity) : (firstIds n).Nodup := by
  refine List.Nodup.map_on (fun a ha b hb hab => ?_) List.nodup_range
  have hval := congrArg Subtype.val hab
  have ha := List.mem_range.mp ha
  have hb := List.mem_range.mp hb
  simp only [capacity] at h
  simp only [Ranged.clamp] at hval
  omega

/-- As long as there are fewer rows than positive identifiers, one of these is free. -/
theorem exists_freeId? (h : rows.length < capacity) : ∃ id, freeId? rows = some id := by
  cases hfree : freeId? rows with
  | some id => exact ⟨id, rfl⟩
  | none =>
    -- There is one candidate more than there are rows, so the rows cannot have them all.
    have hall : firstIds (rows.length + 1) ⊆ rows.map Row.key := by
      intro id hid
      have htaken := List.find?_eq_none.mp hfree id hid
      obtain ⟨r, hr, hkey⟩ := has_iff.mp (by simpa using htaken)
      exact hkey ▸ List.mem_map_of_mem hr
    have hlength := (List.subperm_of_subset (nodup_firstIds h) hall).length_le
    rw [firstIds, List.length_map, List.length_range, List.length_map] at hlength
    omega

/-- A table is full with that many rows at the earliest. -/
theorem exists_nextId?_of_length (h : rows.length < capacity) : ∃ id, nextId? rows = some id := by
  cases rows with
  | nil => exact ⟨firstId, rfl⟩
  | cons r rest =>
    simp only [nextId?]
    split
    · exact ⟨_, rfl⟩
    · exact exists_freeId? h

end Table

namespace Store

variable {s : Store} {fault : Fault}

/-- No table has given out the last identifier of all. -/
structure Roomy (s : Store) : Prop where
  users : Table.has Table.lastId s.users = false
  groups : Table.has Table.lastId s.groups = false
  instances : Table.has Table.lastId s.instances = false

instance (s : Store) : Decidable s.Roomy :=
  decidable_of_iff (Table.has Table.lastId s.users = false ∧
      Table.has Table.lastId s.groups = false ∧ Table.has Table.lastId s.instances = false)
    ⟨fun h => ⟨h.1, h.2.1, h.2.2⟩, fun h => ⟨h.users, h.groups, h.instances⟩⟩

def HasUser (s : Store) (id : Id) : Prop := ∃ u ∈ s.users, u.id = id

def HasGroup (s : Store) (id : Id) : Prop := ∃ g ∈ s.groups, g.id = id

def HasAuthority (s : Store) (id : Id) : Prop := ∃ a ∈ s.authorities, a.id = id

def UserTaken (s : Store) (id : Id) (name : String) : Prop :=
  ∃ u ∈ s.users, u.id = id ∨ u.username = name

namespace Access

/-- The call would bring about a row that is there already, or a name that is. -/
def Duplicates (s : Store) : Access → Prop
  | .createUser name _ _ _ => ∃ u ∈ s.users, u.username = name
  | .createUserWithId id name _ _ _ => s.UserTaken id name
  | .updateUser id changes =>
    s.HasUser id ∧ ∃ u ∈ s.users, u.id ≠ id ∧ changes.username = some u.username
  | .createGroup name => ∃ g ∈ s.groups, g.name = name
  | .renameGroup id name => s.HasGroup id ∧ ∃ g ∈ s.groups, g.id ≠ id ∧ g.name = name
  | _ => False

/-- The call would bring about a pair that refers to a row that is missing. -/
def Dangles (s : Store) : Access → Prop
  | .createUserWithId id name _ authority _ => ¬s.UserTaken id name ∧ ¬s.HasAuthority authority
  | .grantUser user authority => ¬(s.HasUser user ∧ s.HasAuthority authority)
  | .grantGroup group authority => ¬(s.HasGroup group ∧ s.HasAuthority authority)
  | .addMember group user => ¬(s.HasGroup group ∧ s.HasUser user)
  | _ => False

end Access

/-! ## Pairs of rows -/

/-- A pair is refused unless there is a row on either side. -/
theorem pair_eq_error_iff {α : Type} {x : α × Store} {left right : Bool} {hasLeft hasRight : Prop}
    (hleft : left = true ↔ hasLeft) (hright : right = true ↔ hasRight) :
    (if left && right then .ok x else .error .dangling : Call α) = .error fault ↔
      fault = .dangling ∧ ¬(hasLeft ∧ hasRight) := by
  rw [← hleft, ← hright, ← Bool.and_eq_true]
  split
  · rename_i hboth
    exact ⟨nofun, fun h => absurd hboth h.2⟩
  · rename_i hboth
    exact ⟨fun h => ⟨(Except.error.inj h).symm, hboth⟩, fun h => by rw [h.1]⟩

theorem grantUser_eq_error_iff {user authority : Id} :
    s.grantUser user authority = .error fault ↔
      fault = .dangling ∧ ¬(s.HasUser user ∧ s.HasAuthority authority) :=
  pair_eq_error_iff Table.has_iff Table.has_iff

theorem grantGroup_eq_error_iff {group authority : Id} :
    s.grantGroup group authority = .error fault ↔
      fault = .dangling ∧ ¬(s.HasGroup group ∧ s.HasAuthority authority) :=
  pair_eq_error_iff Table.has_iff Table.has_iff

theorem addMember_eq_error_iff {group user : Id} :
    s.addMember group user = .error fault ↔
      fault = .dangling ∧ ¬(s.HasGroup group ∧ s.HasUser user) :=
  pair_eq_error_iff Table.has_iff Table.has_iff

/-! ## Names and identifiers -/

theorem userTaken_iff {id : Id} {name : String} :
    (Table.has id s.users || (s.userNamed? name).isSome) = true ↔ s.UserTaken id name := by
  simp only [Bool.or_eq_true, Table.has_iff, userNamed?, List.find?_isSome, beq_iff_eq, UserTaken,
    and_or_left, exists_or]
  rfl

theorem addUser_eq_error_iff {u : User} {authority : Id} :
    s.addUser u authority = .error fault ↔
      fault = .duplicate ∧ s.UserTaken u.id u.username ∨
      fault = .dangling ∧ ¬s.UserTaken u.id u.username ∧ ¬s.HasAuthority authority := by
  have hauthority : Table.has authority s.authorities = true ↔ s.HasAuthority authority :=
    Table.has_iff
  rw [addUser, ← userTaken_iff, ← hauthority]
  cases Table.has u.id s.users || (s.userNamed? u.username).isSome <;>
    cases Table.has authority s.authorities <;> simp [eq_comm]

theorem createUser_eq_error_iff {name hash : String} {enabled : Bool} {now : Instant}
    (h : s.Sound) (hroom : Table.has Table.lastId s.users = false) :
    s.createUser name hash enabled now = .error fault ↔
      fault = .duplicate ∧ ∃ u ∈ s.users, u.username = name := by
  obtain ⟨id, hid, -⟩ := Table.exists_nextId? hroom
  have hfresh := Table.has_eq_false_iff.mp (Table.not_has_of_nextId? hid)
  have htaken : s.UserTaken id name ↔ ∃ u ∈ s.users, u.username = name :=
    exists_congr fun u => and_congr_right fun hu => or_iff_right (hfresh u hu)
  have hauthority : s.HasAuthority userAuthority.id := by
    rw [HasAuthority, h.authorities]
    exact ⟨_, List.mem_cons_self, rfl⟩
  rw [createUser, hid]
  refine addUser_eq_error_iff.trans ?_
  rw [htaken]
  exact or_iff_left fun hdangling => hdangling.2.2 hauthority

theorem createGroup_eq_error_iff {name : String}
    (hroom : Table.has Table.lastId s.groups = false) :
    s.createGroup name = .error fault ↔
      fault = .duplicate ∧ ∃ g ∈ s.groups, g.name = name := by
  obtain ⟨id, hid, -⟩ := Table.exists_nextId? hroom
  have hnamed : (s.groupNamed? name).isSome = true ↔ ∃ g ∈ s.groups, g.name = name := by
    simp [groupNamed?]
  rw [createGroup, hid, ← hnamed]
  cases (s.groupNamed? name).isSome <;> simp [eq_comm]

theorem renameGroup_eq_error_iff {id : Id} {name : String} :
    s.renameGroup id name = .error fault ↔
      fault = .duplicate ∧ s.HasGroup id ∧ ∃ g ∈ s.groups, g.id ≠ id ∧ g.name = name := by
  rw [renameGroup]
  cases hfind : s.group? id with
  | none =>
    have hmissing := Table.has_eq_false_iff.mp (Table.has_of_find?_eq_none hfind)
    exact ⟨nofun, fun ⟨_, ⟨g, hg, hid⟩, _⟩ => absurd hid (hmissing g hg)⟩
  | some g =>
    have hhas : s.HasGroup id := ⟨g, Table.mem_of_find? hfind, Table.key_of_find? hfind⟩
    have htaken : s.groupTakenBeside id name = true ↔
        ∃ g ∈ s.groups, g.id ≠ id ∧ g.name = name := by
      simp [groupTakenBeside]
    rw [← htaken]
    cases s.groupTakenBeside id name <;> simp [hhas, eq_comm]

/-- An account that keeps its name takes nobody else's. -/
theorem Sound.nameTakenBeside_iff (h : s.Sound) {id : Id} {u : User} (hu : s.user? id = some u)
    (changes : UserChanges) :
    s.nameTakenBeside id (changes.apply u).username = true ↔
      ∃ v ∈ s.users, v.id ≠ id ∧ changes.username = some v.username := by
  have hid : u.id = id := Table.key_of_find? hu
  simp only [nameTakenBeside, List.any_eq_true, Bool.and_eq_true, bne_iff_ne, beq_iff_eq,
    UserChanges.apply]
  refine exists_congr fun v => and_congr_right fun hv => and_congr_right fun hne => ?_
  cases changes.username with
  | some name => exact ⟨fun heq => congrArg some heq.symm, fun heq => (Option.some.inj heq).symm⟩
  | none =>
    refine ⟨fun heq => absurd ?_ hne, nofun⟩
    rw [List.inj_on_of_nodup_map h.usernames hv (Table.mem_of_find? hu) heq, hid]

theorem updateUser_eq_error_iff {id : Id} {changes : UserChanges} (h : s.Sound) :
    s.updateUser id changes = .error fault ↔
      fault = .duplicate ∧ s.HasUser id ∧
        ∃ u ∈ s.users, u.id ≠ id ∧ changes.username = some u.username := by
  rw [updateUser]
  cases hfind : s.user? id with
  | none =>
    have hmissing := Table.has_eq_false_iff.mp (Table.has_of_find?_eq_none hfind)
    exact ⟨nofun, fun ⟨_, ⟨u, hu, hid⟩, _⟩ => absurd hid (hmissing u hu)⟩
  | some u =>
    have hhas : s.HasUser id := ⟨u, Table.mem_of_find? hfind, Table.key_of_find? hfind⟩
    rw [← h.nameTakenBeside_iff hfind]
    cases hbeside : s.nameTakenBeside id (changes.apply u).username <;>
      simp [hbeside, hhas, eq_comm]

theorem createInstance_ne_error {settings : Settings}
    (hroom : Table.has Table.lastId s.instances = false) :
    s.createInstance settings ≠ .error fault := by
  obtain ⟨id, hid, -⟩ := Table.exists_nextId? hroom
  rw [createInstance, hid]
  exact nofun

/-! ## Every call -/

theorem map_snd_eq_error_iff {α : Type} {call : Call α} :
    call.map (·.2) = .error fault ↔ call = .error fault := by
  cases call <;> simp [Except.map]

theorem Sound.outcome_eq_error_iff (h : s.Sound) (hroom : s.Roomy) {a : Access} :
    a.outcome s = .error fault ↔
      fault = .duplicate ∧ a.Duplicates s ∨ fault = .dangling ∧ a.Dangles s := by
  cases a with
  | createUser name hash enabled now =>
    rw [Access.outcome, map_snd_eq_error_iff, createUser_eq_error_iff h hroom.users]
    simp [Access.Duplicates, Access.Dangles]
  | createUserWithId id name hash authority now =>
    rw [Access.outcome, map_snd_eq_error_iff]
    exact addUser_eq_error_iff
  | updateUser id changes =>
    rw [Access.outcome, map_snd_eq_error_iff, updateUser_eq_error_iff h]
    simp [Access.Duplicates, Access.Dangles]
  | createGroup name =>
    rw [Access.outcome, map_snd_eq_error_iff, createGroup_eq_error_iff hroom.groups]
    simp [Access.Duplicates, Access.Dangles]
  | renameGroup id name =>
    rw [Access.outcome, map_snd_eq_error_iff, renameGroup_eq_error_iff]
    simp [Access.Duplicates, Access.Dangles]
  | grantUser user authority =>
    rw [Access.outcome, map_snd_eq_error_iff, grantUser_eq_error_iff]
    simp [Access.Duplicates, Access.Dangles]
  | grantGroup group authority =>
    rw [Access.outcome, map_snd_eq_error_iff, grantGroup_eq_error_iff]
    simp [Access.Duplicates, Access.Dangles]
  | addMember group user =>
    rw [Access.outcome, map_snd_eq_error_iff, addMember_eq_error_iff]
    simp [Access.Duplicates, Access.Dangles]
  | createInstance settings =>
    rw [Access.outcome, map_snd_eq_error_iff]
    simp [createInstance_ne_error hroom.instances, Access.Duplicates, Access.Dangles]
  | deleteUser | revokeUser | deleteGroup | removeMember | revokeGroup | updateInstance
  | deleteInstance => simp [Access.outcome, Access.Duplicates, Access.Dangles]

theorem Access.run_of_refused {a : Access} (h : a.outcome s = .error fault) : a.run s = s := by
  rw [Access.run, h]

/-- The row of a new account is written before its grant is, and it goes again if there is
no such authority. -/
theorem Sound.addUser_of_half_written (h : s.Sound) {u : User} {authority : Id} {half : Store}
    (hrow : s.insertUser u = .ok half)
    (hgrant : half.insertGrant ⟨u.id, authority⟩ = .error fault) :
    half ≠ s ∧ s.addUser u authority = .error fault := by
  constructor
  · rintro rfl
    unfold insertUser at hrow
    split at hrow
    · cases hrow
    · rename_i hfree
      have husers : Table.insert u half.users = half.users :=
        congrArg Store.users (Except.ok.inj hrow)
      have hhas : Table.has u.id (Table.insert u half.users) = true :=
        Table.has_insert.mpr (.inl rfl)
      rw [husers] at hhas
      exact hfree (by rw [hhas, Bool.true_or])
  · rw [addUser_eq_bind h, hrow]
    show (half.insertGrant _).map _ = _
    rw [hgrant]
    rfl

/-- Whatever happened before, while there are identifiers left a call fails for one of two
reasons and only if the rows that are stored give that reason.  Nothing of a call that
fails is kept, also where a row had been written by then. -/
theorem refused_exactly (history : List Access) (hroom : (fresh.after history).Roomy) :
    let s := fresh.after history
    (∀ (a : Access) (fault : Fault), a.outcome s = .error fault ↔
      fault = .duplicate ∧ a.Duplicates s ∨ fault = .dangling ∧ a.Dangles s) ∧
    (∀ (a : Access) (fault : Fault), a.outcome s = .error fault → a.run s = s) ∧
    ∀ (u : User) (authority : Id) (half : Store) (fault : Fault),
      s.insertUser u = .ok half → half.insertGrant ⟨u.id, authority⟩ = .error fault →
      half ≠ s ∧ s.addUser u authority = .error fault := by
  intro s
  have hs : s.Sound := Sound.fresh.after history
  exact ⟨fun _ _ => hs.outcome_eq_error_iff hroom, fun _ _ => Access.run_of_refused,
    fun _ _ _ _ hrow hgrant => hs.addUser_of_half_written hrow hgrant⟩

/-- After an account was added, its name is refused, and so is another account with an
authority that does not exist. -/
theorem refused_after_alice :
    let s := fresh.after [.createUser "alice" "hash" true ⟨0, 0⟩]
    (Access.createUser "alice" "other" true ⟨1, 0⟩).outcome s = .error .duplicate ∧
      (Access.createUserWithId .zero "root" "hash" Table.lastId ⟨1, 0⟩).outcome s =
        .error .dangling ∧
      (Access.createUserWithId .zero "root" "hash" Table.lastId ⟨1, 0⟩).run s = s := by
  obtain ⟨hreason, hkept, -⟩ :=
    refused_exactly [.createUser "alice" "hash" true ⟨0, 0⟩] (by decide)
  have hdangling := (hreason (.createUserWithId .zero "root" "hash" Table.lastId ⟨1, 0⟩)
    .dangling).mpr (.inr ⟨rfl, by unfold Access.Dangles UserTaken HasAuthority; decide⟩)
  refine ⟨(hreason _ _).mpr (.inl ⟨rfl, ?_⟩), hdangling, hkept _ _ hdangling⟩
  unfold Access.Duplicates
  decide

end Store
end BotFleet
