import Mathlib.Data.List.Sort
import BotFleet.Proofs.Store.Rights
import BotFleet.Proofs.Text.Order

/-
Where the authorities of an account come from.

An authority may be granted to an account itself and to any number of the groups it is a
member of, and it has the name of the authority in its list once, whatever the number.  So
a name goes from the list when its last source does and no sooner.

The theorem this file exists for is `authoritiesOf_exact`, and all of it rests on
`mem_authoritiesOf`: the names in the list are those that have a source.
-/

namespace BotFleet
namespace Store

/-- What an account may hold an authority by. -/
inductive Source where
  | direct (authority : Id)
  | through (group authority : Id)
deriving DecidableEq

namespace Source

def authority : Source → Id
  | .direct authority => authority
  | .through _ authority => authority

def group? : Source → Option Id
  | .direct _ => none
  | .through group _ => some group

def Open (s : Store) (user : Id) : Source → Prop
  | .direct authority => ⟨user, authority⟩ ∈ s.userGrants
  | .through group authority =>
    ⟨group, user⟩ ∈ s.memberships ∧ ⟨group, authority⟩ ∈ s.groupGrants

end Source

/-- A source of a name for an account. -/
def Gives (s : Store) (user : Id) (name : String) (source : Source) : Prop :=
  source.Open s user ∧ ⟨source.authority, name⟩ ∈ s.authorities

variable {s : Store} {user authority group : Id} {name : String} {source : Source}

/-! ## The list of names -/

theorem holds_iff_open :
    s.holds user authority = true ↔
      ∃ source : Source, source.Open s user ∧ source.authority = authority := by
  rw [holds_iff]
  constructor
  · rintro (hgrant | ⟨group, hmember, hgrant⟩)
    · exact ⟨.direct authority, hgrant, rfl⟩
    · exact ⟨.through group authority, ⟨hmember, hgrant⟩, rfl⟩
  · rintro ⟨authority | ⟨group, authority⟩, hopen, rfl⟩
    · exact .inl hopen
    · exact .inr ⟨group, hopen⟩

theorem mem_authoritiesOf :
    name ∈ s.authoritiesOf user ↔ ∃ source, s.Gives user name source := by
  rw [authoritiesOf, sortNames, List.mem_mergeSort, List.mem_eraseDups, List.mem_map]
  constructor
  · rintro ⟨a, ha, rfl⟩
    obtain ⟨hrow, hholds⟩ := List.mem_filter.mp ha
    obtain ⟨source, hopen, hid⟩ := holds_iff_open.mp hholds
    exact ⟨source, hopen, hid ▸ hrow⟩
  · rintro ⟨source, hopen, hrow⟩
    exact ⟨_, List.mem_filter.mpr ⟨hrow, holds_iff_open.mpr ⟨source, hopen, rfl⟩⟩, rfl⟩

theorem nodup_eraseDups (names : List String) : names.eraseDups.Nodup := by
  match names with
  | [] => exact List.nodup_nil
  | name :: rest =>
    rw [List.eraseDups_cons, List.nodup_cons]
    refine ⟨fun hmem => ?_, nodup_eraseDups _⟩
    have hne := (List.mem_filter.mp (List.mem_eraseDups.mp hmem)).2
    rw [beq_self_eq_true] at hne
    cases hne
termination_by names.length
decreasing_by exact Nat.lt_succ_of_le (List.length_filter_le _ _)

theorem nodup_authoritiesOf : (s.authoritiesOf user).Nodup :=
  (List.mergeSort_perm _ _).nodup_iff.mpr (nodup_eraseDups _)

theorem sorted_sortNames (names : List String) : (sortNames names).Pairwise (· ≤ ·) :=
  List.pairwise_mergeSort' (· ≤ ·) names

/-- Each name is before the next one, byte by byte. -/
theorem increasing_authoritiesOf : (s.authoritiesOf user).Pairwise fun a b =>
    Utf8.encode a.toList < Utf8.encode b.toList := by
  refine ((sorted_sortNames _).and nodup_authoritiesOf).imp fun {a b} h => ?_
  exact Utf8.encode_lt_iff.mpr (lt_of_le_of_ne h.1 h.2)

/-! ## Sources that are closed -/

/-- A grant that is revoked is one source less. -/
theorem open_revokeUser : source.Open (s.revokeUser user authority).2 user ↔
    source ≠ .direct authority ∧ source.Open s user := by
  cases source with
  | direct other =>
    have hpair : (⟨user, other⟩ : Grant) ≠ ⟨user, authority⟩ ↔
        Source.direct other ≠ .direct authority := by
      simp
    rw [← hpair, and_comm]
    exact mem_unlink _ _ _
  | through group other => exact (and_iff_right nofun).symm

/-- With a group go all sources through it. -/
theorem open_removeMember : source.Open (s.removeMember group user).2 user ↔
    source.group? ≠ some group ∧ source.Open s user := by
  cases source with
  | direct authority => exact (and_iff_right nofun).symm
  | through other authority =>
    have hpair : (⟨other, user⟩ : Membership) ≠ ⟨group, user⟩ ↔ some other ≠ some group := by
      simp
    have hmember : (⟨other, user⟩ : Membership) ∈ (s.removeMember group user).2.memberships ↔
        ⟨other, user⟩ ∈ s.memberships ∧ (⟨other, user⟩ : Membership) ≠ ⟨group, user⟩ :=
      mem_unlink _ _ _
    rw [Source.Open, hmember, hpair]
    exact ⟨fun ⟨⟨hold, hne⟩, hgrant⟩ => ⟨hne, hold, hgrant⟩,
      fun ⟨hne, hold, hgrant⟩ => ⟨⟨hold, hne⟩, hgrant⟩⟩

/-- The names of the authorities of an account increase byte by byte, and they are those
that have a source.  A name that was there and is gone once a grant is revoked, or once the
account has left a group, had no other source. -/
theorem authoritiesOf_exact (s : Store) (user : Id) :
    ((s.authoritiesOf user).Pairwise fun a b => Utf8.encode a.toList < Utf8.encode b.toList) ∧
    (s.authoritiesOf user).Nodup ∧
    (∀ name, name ∈ s.authoritiesOf user ↔ ∃ source, s.Gives user name source) ∧
    (∀ authority name, name ∈ (s.revokeUser user authority).2.authoritiesOf user ↔
      ∃ source, source ≠ .direct authority ∧ s.Gives user name source) ∧
    ∀ group name, name ∈ (s.removeMember group user).2.authoritiesOf user ↔
      ∃ source, source.group? ≠ some group ∧ s.Gives user name source := by
  refine ⟨increasing_authoritiesOf, nodup_authoritiesOf, fun name => mem_authoritiesOf, ?_, ?_⟩
  · intro authority name
    rw [mem_authoritiesOf]
    refine exists_congr fun source => ?_
    rw [Gives, Gives, open_revokeUser, and_assoc]
    rfl
  · intro group name
    rw [mem_authoritiesOf]
    refine exists_congr fun source => ?_
    rw [Gives, Gives, open_removeMember, and_assoc]
    rfl

end Store
end BotFleet
