import Mathlib.Logic.Function.Basic
import BotFleet.Proofs.Store.Faults

/-
Stored instances as a map.

A catalogue is a map from identifiers to settings, and `Catalogue.Answers` says how such a
map deals with a request: what it replies and which map comes after, without a word of
rows.  The store deals with the same requests by its table.  Read as a map, the table does
what a catalogue does, in one request and so in any number of them, and as long as the last
identifier of all is free a catalogue has no choice in what it does.

The theorem this file exists for is `instances_kept_as_map`.
-/

namespace BotFleet

/-- Settings that replace others.  Without a password the one that was there stays. -/
def Settings.over (new old : Settings) : Settings :=
  { new with password := new.password.or old.password }

abbrev Catalogue := Id → Option Settings

namespace Catalogue

def empty : Catalogue := fun _ => none

def set (m : Catalogue) (id : Id) (settings : Option Settings) : Catalogue :=
  Function.update m id settings

/-- The identifier of the next entry is one above the greatest, and 1 if there is no entry. -/
structure Next (m : Catalogue) (id : Id) : Prop where
  free : m id = none
  follows : m = empty ∧ id.val = 1 ∨
    ∃ top, m top ≠ none ∧ (∀ other, m other ≠ none → other.val ≤ top.val) ∧ id.val = top.val + 1

/-- The rows are the entries, by increasing identifier. -/
structure Lists (m : Catalogue) (rows : List Instance) : Prop where
  increasing : rows.Pairwise fun a b => a.id.val < b.id.val
  mem_iff : ∀ i, i ∈ rows ↔ m i.id = some i.settings

inductive Request where
  | create (settings : Settings)
  | update (id : Id) (settings : Settings)
  | delete (id : Id)
  | get (id : Id)
  | list
  | listAutostart

inductive Reply where
  | created (i : Instance)
  | refused
  | found (i : Option Instance)
  | deleted (present : Bool)
  | listed (rows : List Instance)

/-- What a catalogue replies to a request, and the catalogue after it. -/
inductive Answers (m : Catalogue) : Request → Reply → Catalogue → Prop
  | create {settings : Settings} {id : Id} (h : m.Next id) :
    Answers m (.create settings) (.created ⟨id, settings⟩) (m.set id (some settings))
  /-- There is nothing above the last identifier of all, so any free one will do. -/
  | squeeze {settings : Settings} {id : Id} (hlast : m Table.lastId ≠ none) (h : m id = none) :
    Answers m (.create settings) (.created ⟨id, settings⟩) (m.set id (some settings))
  | refuse {settings : Settings} (hlast : m Table.lastId ≠ none) :
    Answers m (.create settings) .refused m
  | update {id : Id} {old new : Settings} (h : m id = some old) :
    Answers m (.update id new) (.found (some ⟨id, new.over old⟩)) (m.set id (some (new.over old)))
  | updateNone {id : Id} {new : Settings} (h : m id = none) :
    Answers m (.update id new) (.found none) m
  | delete {id : Id} (h : m id ≠ none) : Answers m (.delete id) (.deleted true) (m.set id none)
  | deleteNone {id : Id} (h : m id = none) : Answers m (.delete id) (.deleted false) m
  | get {id : Id} : Answers m (.get id) (.found ((m id).map (Instance.mk id))) m
  | list {rows : List Instance} (h : m.Lists rows) : Answers m .list (.listed rows) m
  | listAutostart {rows : List Instance} (h : m.Lists rows) :
    Answers m .listAutostart (.listed (rows.filter (·.settings.autostart))) m

/-- A catalogue gives these replies to these requests one after another, and the second one
is what comes of it. -/
inductive Run : Catalogue → List (Request × Reply) → Catalogue → Prop
  | nil {m : Catalogue} : Run m [] m
  | cons {m m' m'' : Catalogue} {request : Request} {reply : Reply}
    {rest : List (Request × Reply)} (h : Answers m request reply m') (hrest : Run m' rest m'') :
    Run m ((request, reply) :: rest) m''

variable {m m₁ m₂ : Catalogue} {id id' : Id} {rows rows' : List Instance}

/-! ## A catalogue has no choice -/

theorem set_apply (m : Catalogue) (id other : Id) (settings : Option Settings) :
    m.set id settings other = if other = id then settings else m other :=
  Function.update_apply m id settings other

theorem set_self (m : Catalogue) (id : Id) : m.set id (m id) = m := Function.update_eq_self id m

theorem Next.unique (h : m.Next id) (h' : m.Next id') : id = id' := by
  apply Ranged.ext
  rcases h.follows with ⟨rfl, hval⟩ | ⟨top, htop, hgreatest, hval⟩
  · rcases h'.follows with ⟨-, hval'⟩ | ⟨top, htop, -⟩
    · rw [hval, hval']
    · exact absurd rfl htop
  · rcases h'.follows with ⟨rfl, -⟩ | ⟨top', htop', hgreatest', hval'⟩
    · exact absurd rfl htop
    · have hle := hgreatest top' htop'
      have hge := hgreatest' top htop
      omega

theorem Lists.unique (h : m.Lists rows) (h' : m.Lists rows') : rows = rows' := by
  have hnodup {l : List Instance} (hl : m.Lists l) : l.Nodup := by
    refine hl.increasing.imp fun {a b} hlt heq => ?_
    rw [heq] at hlt
    omega
  have hperm : rows.Perm rows' :=
    (List.perm_ext_iff_of_nodup (hnodup h) (hnodup h')).mpr fun i => by rw [h.mem_iff, h'.mem_iff]
  refine hperm.eq_of_pairwise ?_ h.increasing h'.increasing
  intro a b _ _ hab hba
  omega

theorem Answers.unique {request : Request} {reply reply' : Reply} (hlast : m Table.lastId = none)
    (h : Answers m request reply m₁) (h' : Answers m request reply' m₂) :
    reply = reply' ∧ m₁ = m₂ := by
  cases h with
  | create hnext =>
    cases h' with
    | create hnext' =>
      cases hnext.unique hnext'
      exact ⟨rfl, rfl⟩
    | squeeze htaken | refuse htaken => exact absurd hlast htaken
  | squeeze htaken | refuse htaken => exact absurd hlast htaken
  | update hold =>
    cases h' with
    | update hold' =>
      cases hold.symm.trans hold'
      exact ⟨rfl, rfl⟩
    | updateNone hnone => cases hold.symm.trans hnone
  | updateNone hnone =>
    cases h' with
    | update hold => cases hold.symm.trans hnone
    | updateNone => exact ⟨rfl, rfl⟩
  | delete hsome =>
    cases h' with
    | delete => exact ⟨rfl, rfl⟩
    | deleteNone hnone => exact absurd hnone hsome
  | deleteNone hnone =>
    cases h' with
    | delete hsome => exact absurd hnone hsome
    | deleteNone => exact ⟨rfl, rfl⟩
  | get =>
    cases h'
    exact ⟨rfl, rfl⟩
  | list hrows =>
    cases h' with
    | list hrows' => exact ⟨congrArg Reply.listed (hrows.unique hrows'), rfl⟩
  | listAutostart hrows =>
    cases h' with
    | listAutostart hrows' =>
      cases hrows.unique hrows'
      exact ⟨rfl, rfl⟩

end Catalogue

namespace Store

open Catalogue (Request Reply)

variable {s : Store} {id : Id} {settings : Settings}

/-! ## What the store does -/

def deal (s : Store) : Request → Reply × Store
  | .create settings =>
    match s.createInstance settings with
    | .ok (i, s') => (.created i, s')
    | .error _ => (.refused, s)
  | .update id settings =>
    (.found (s.updateInstance id settings).1, (s.updateInstance id settings).2)
  | .delete id => (.deleted (s.deleteInstance id).1, (s.deleteInstance id).2)
  | .get id => (.found (s.instance? id), s)
  | .list => (.listed s.instances, s)
  | .listAutostart => (.listed s.autostartInstances, s)

/-- The store after some requests. -/
def dealt (s : Store) (requests : List Request) : Store :=
  requests.foldl (fun s request => (s.deal request).2) s

/-- Requests with the replies to them. -/
def dealings : Store → List Request → List (Request × Reply)
  | _, [] => []
  | s, request :: requests =>
    (request, (s.deal request).1) :: (s.deal request).2.dealings requests

/-- The table of instances, read as a map. -/
def catalogue (s : Store) : Catalogue := fun id => (s.instance? id).map (·.settings)

theorem catalogue_fresh : fresh.catalogue = .empty := rfl

/-! ## The table as a map -/

theorem catalogue_eq_none_iff : s.catalogue id = none ↔ Table.has id s.instances = false := by
  rw [catalogue, Option.map_eq_none_iff, Table.has, Option.isSome_eq_false_iff,
    Option.isNone_iff_eq_none]
  rfl

theorem Sound.catalogue_eq_some_iff (h : s.Sound) :
    s.catalogue id = some settings ↔ ⟨id, settings⟩ ∈ s.instances := by
  rw [catalogue, Option.map_eq_some_iff]
  constructor
  · intro hfound
    obtain ⟨i, hi, rfl⟩ := hfound
    cases Table.key_of_find? hi
    exact Table.mem_of_find? hi
  · intro hmem
    exact ⟨⟨id, settings⟩, (Table.find?_eq_some_iff h.instances).mpr ⟨hmem, rfl⟩, rfl⟩

theorem Sound.lists (h : s.Sound) : s.catalogue.Lists s.instances where
  increasing := h.instances
  mem_iff _ := h.catalogue_eq_some_iff.symm

theorem resettle_eq (settings : Settings) (i : Instance) :
    resettle settings i = ⟨i.id, settings.over i.settings⟩ := by
  rw [resettle, Settings.over, Option.orElse_eq_orElse, Option.orElse_eq_or]

theorem catalogue_insert (hfresh : Table.has id s.instances = false) :
    catalogue { s with instances := Table.insert ⟨id, settings⟩ s.instances } =
      s.catalogue.set id (some settings) := by
  funext other
  rw [catalogue, instance?, Table.find?_insert _ _ _ hfresh, Catalogue.set_apply]
  by_cases hid : other = id
  · have hkey : Row.key (⟨id, settings⟩ : Instance) = other := hid.symm
    rw [if_pos hid, if_pos hkey]
    rfl
  · have hkey : Row.key (⟨id, settings⟩ : Instance) ≠ other := fun h => hid h.symm
    rw [if_neg hid, if_neg hkey]
    rfl

theorem catalogue_update {i : Instance} (hi : s.instance? id = some i) :
    catalogue { s with instances := Table.update id (resettle settings) s.instances } =
      s.catalogue.set id (some (settings.over i.settings)) := by
  funext other
  rw [catalogue, instance?, Table.find?_update id other (resettle settings) _ fun _ => rfl,
    Catalogue.set_apply]
  by_cases hid : other = id
  · rw [if_pos hid, if_pos hid, hid]
    show Option.map _ (Option.map _ (s.instance? id)) = _
    rw [hi]
    exact congrArg some (congrArg Instance.settings (resettle_eq settings i))
  · rw [if_neg hid, if_neg hid]
    rfl

theorem catalogue_erase (s : Store) (id : Id) :
    (s.deleteInstance id).2.catalogue = s.catalogue.set id none := by
  funext other
  rw [catalogue, instance?, deleteInstance, Table.find?_erase, Catalogue.set_apply]
  by_cases hid : other = id
  · rw [if_pos hid, if_pos hid]
    rfl
  · rw [if_neg hid, if_neg hid]
    rfl

/-- The identifier that the table gives to a new row is the next one of the map. -/
theorem next_of_nextId? (hlast : s.catalogue Table.lastId = none)
    (hid : Table.nextId? s.instances = some id) : s.catalogue.Next id := by
  have hentry {other : Id} : s.catalogue other ≠ none ↔ ∃ i ∈ s.instances, i.id = other := by
    rw [ne_eq, catalogue_eq_none_iff, Bool.not_eq_false, Table.has_iff]
    rfl
  refine ⟨catalogue_eq_none_iff.mpr (Table.not_has_of_nextId? hid), ?_⟩
  obtain ⟨id', hid', hplace⟩ := Table.exists_nextId? (catalogue_eq_none_iff.mp hlast)
  cases hid.symm.trans hid'
  rcases hplace with ⟨hnil, rfl⟩ | ⟨i, hi, hgreatest, hval⟩
  · refine .inl ⟨?_, rfl⟩
    funext other
    rw [catalogue, instance?, hnil]
    rfl
  · refine .inr ⟨i.id, hentry.mpr ⟨i, hi, rfl⟩, fun other hother => ?_, hval⟩
    obtain ⟨j, hj, rfl⟩ := hentry.mp hother
    exact hgreatest j hj

/-! ## Any number of requests -/

theorem Sound.deal (h : s.Sound) (request : Request) : (s.deal request).2.Sound := by
  cases request with
  | create settings =>
    rw [Store.deal]
    cases hc : s.createInstance settings with
    | ok result => exact h.createInstance hc
    | error fault => exact h
  | update id settings =>
    show (s.updateInstance id settings).2.Sound
    rcases hc : s.updateInstance id settings with ⟨_ | i, s'⟩
    · rw [(updateInstance_eq_none hc).2]
      exact h
    · exact h.updateInstance hc
  | delete id => exact h.deleteInstance id
  | get | list | listAutostart => exact h

/-- The table deals with one request as a map does. -/
theorem Sound.answers (h : s.Sound) (request : Request) :
    s.catalogue.Answers request (s.deal request).1 (s.deal request).2.catalogue := by
  cases request with
  | create settings =>
    rw [Store.deal]
    cases hc : s.createInstance settings with
    | error fault =>
      refine .refuse fun hlast => ?_
      exact createInstance_ne_error (catalogue_eq_none_iff.mp hlast) hc
    | ok result =>
      obtain ⟨i, s'⟩ := result
      obtain ⟨id, hid, hfresh, rfl, rfl⟩ := createInstance_eq_ok hc
      dsimp only
      rw [catalogue_insert hfresh]
      by_cases hlast : s.catalogue Table.lastId = none
      · exact .create (next_of_nextId? hlast hid)
      · exact .squeeze hlast (catalogue_eq_none_iff.mpr hfresh)
  | update id settings =>
    rw [Store.deal]
    rcases hc : s.updateInstance id settings with ⟨_ | v, s'⟩
    · obtain ⟨hi, rfl⟩ := updateInstance_eq_none hc
      refine .updateNone ?_
      rw [catalogue, hi]
      rfl
    · obtain ⟨i, hi, rfl, rfl⟩ := updateInstance_eq_some hc
      dsimp only
      have hid : i.id = id := Table.key_of_find? hi
      rw [catalogue_update hi, resettle_eq, hid]
      refine .update ?_
      rw [catalogue, hi]
      rfl
  | delete id =>
    rw [Store.deal, catalogue_erase]
    cases hhas : Table.has id s.instances with
    | true =>
      have hdeleted : (s.deleteInstance id).1 = true := hhas
      rw [hdeleted]
      refine .delete fun hnone => ?_
      rw [catalogue_eq_none_iff, hhas] at hnone
      cases hnone
    | false =>
      have hdeleted : (s.deleteInstance id).1 = false := hhas
      have hnone : s.catalogue id = none := catalogue_eq_none_iff.mpr hhas
      have hsame : s.catalogue.set id none = s.catalogue := by
        rw [← hnone]
        exact s.catalogue.set_self id
      rw [hdeleted, hsame]
      exact .deleteNone hnone
  | get id =>
    have hfound : s.instance? id = (s.catalogue id).map (Instance.mk id) := by
      rw [catalogue, Option.map_map]
      cases hi : s.instance? id with
      | none => rfl
      | some i =>
        cases Table.key_of_find? hi
        rfl
    rw [Store.deal, hfound]
    exact .get
  | list => exact .list h.lists
  | listAutostart => exact .listAutostart h.lists

theorem Sound.runs (h : s.Sound) (requests : List Request) :
    Catalogue.Run s.catalogue (s.dealings requests) (s.dealt requests).catalogue := by
  induction requests generalizing s with
  | nil => exact .nil
  | cons request requests ih => exact .cons (h.answers request) (ih (h.deal request))

/-- Whatever happened before, the instances are kept as a map: any requests are dealt with
as a catalogue deals with them, and there is one way to do that as long as the last
identifier of all is free.  At first the catalogue is empty. -/
theorem instances_kept_as_map (history : List Access) (requests : List Request) :
    let s := fresh.after history
    fresh.catalogue = .empty ∧
    Catalogue.Run s.catalogue (s.dealings requests) (s.dealt requests).catalogue ∧
    ∀ (m : Catalogue) (request : Request) (reply reply' : Reply) (m₁ m₂ : Catalogue),
      m Table.lastId = none → m.Answers request reply m₁ → m.Answers request reply' m₂ →
      reply = reply' ∧ m₁ = m₂ := by
  intro s
  have hs : s.Sound := Sound.fresh.after history
  exact ⟨catalogue_fresh, hs.runs requests, fun _ _ _ _ _ _ => Catalogue.Answers.unique⟩

def jukebox : Settings :=
  ⟨"jukebox", "localhost", ⟨9990, by decide⟩, none, none, some "secret", true⟩

/-- An instance that is given settings without a password keeps its own.  Once it is
deleted its identifier goes to the next one, whose password is not kept. -/
theorem jukebox_kept_as_map :
    let quiet : Settings := { jukebox with password := none, autostart := false }
    let requests := [.create jukebox, .update Table.firstId quiet, .list, .listAutostart,
      .delete Table.firstId, .get Table.firstId, .create quiet]
    (fresh.dealings requests).map (·.2) =
      [.created ⟨Table.firstId, jukebox⟩,
        .found (some ⟨Table.firstId, { jukebox with autostart := false }⟩),
        .listed [⟨Table.firstId, { jukebox with autostart := false }⟩], .listed [],
        .deleted true, .found none, .created ⟨Table.firstId, quiet⟩] ∧
    Catalogue.Run .empty (fresh.dealings requests) (fresh.dealt requests).catalogue ∧
    ∀ reply m, Catalogue.empty.Answers (.create jukebox) reply m →
      reply = .created ⟨Table.firstId, jukebox⟩ := by
  intro quiet requests
  obtain ⟨-, hrun, hunique⟩ := instances_kept_as_map [] requests
  refine ⟨rfl, hrun, fun reply m h => ?_⟩
  have hfirst : Catalogue.empty.Answers (.create jukebox) (.created ⟨Table.firstId, jukebox⟩) _ :=
    .create ⟨rfl, .inl ⟨rfl, rfl⟩⟩
  exact (hunique _ _ _ _ _ _ rfl h hfirst).1

end Store
end BotFleet
