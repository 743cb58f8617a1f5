import BotFleet.Config.Check
import BotFleet.Proofs.Text.Blank

/-
URLs that a configuration may have, and what the daemon's is cut down to.

A URL is accepted if something follows one of the two schemes, and the daemon's then loses
the slashes at its end.  A scheme ends with slashes itself.  So if anything but a slash
follows the scheme, what is left is accepted as well, and if nothing does, the scheme loses
its slashes and is no URL any more.
-/

namespace BotFleet
namespace Config

/-- What URLs begin with. -/
def schemes : List (List Char) := ["http://".toList, "https://".toList]

theorem isHttpUrl_iff {url : String} :
    isHttpUrl url = true ↔ ∃ scheme ∈ schemes, ∃ rest, rest ≠ [] ∧ url.toList = scheme ++ rest := by
  have hafter (scheme : List Char) :
      (scheme.isPrefixOf url.toList && scheme.length < url.toList.length) = true ↔
        ∃ rest, rest ≠ [] ∧ url.toList = scheme ++ rest := by
    rw [Bool.and_eq_true, List.isPrefixOf_iff_prefix, decide_eq_true_iff]
    constructor
    · rintro ⟨⟨rest, hrest⟩, hlength⟩
      refine ⟨rest, ?_, hrest.symm⟩
      rintro rfl
      rw [← hrest, List.append_nil] at hlength
      exact absurd hlength (Nat.lt_irrefl _)
    · rintro ⟨rest, hne, hrest⟩
      have hpos := List.length_pos_of_ne_nil hne
      rw [hrest, List.length_append]
      exact ⟨List.prefix_append _ _, by omega⟩
  simp only [isHttpUrl, Bool.or_eq_true, hafter, schemes, List.mem_cons, List.not_mem_nil,
    or_false, exists_eq_or_imp, exists_eq_left]

/-- Only slashes follow the scheme. -/
def Hollow (url : String) : Prop :=
  ∃ scheme ∈ schemes, ∃ slashes, url.toList = scheme ++ slashes ∧ ∀ c ∈ slashes, c = '/'

variable {c : Config}

theorem daemonBase_toList (c : Config) :
    c.daemonBase.toList = c.daemonUrl.toList.rdropWhile (· == '/') := by
  rw [daemonBase, String.toList_ofList]
  rfl

theorem getLast?_daemonBase_ne (c : Config) : c.daemonBase.toList.getLast? ≠ some '/' := by
  intro h
  rw [daemonBase_toList] at h
  obtain ⟨hne, hlast⟩ := List.mem_getLast?_eq_getLast h
  have hnot := List.rdropWhile_last_not (· == '/') _ hne
  rw [← hlast] at hnot
  exact hnot rfl

/-- Nothing but slashes is taken away. -/
theorem exists_slashes (c : Config) :
    ∃ slashes, c.daemonUrl.toList = c.daemonBase.toList ++ slashes ∧ ∀ x ∈ slashes, x = '/' := by
  refine ⟨c.daemonUrl.toList.rtakeWhile (· == '/'), ?_, fun x hx => ?_⟩
  · rw [daemonBase_toList, List.rdropWhile_append_rtakeWhile]
  · have hslash := List.mem_rtakeWhile_imp hx
    exact eq_of_beq hslash

/-- The base is its own base. -/
theorem daemonBase_daemonBase (c : Config) :
    { c with daemonUrl := c.daemonBase }.daemonBase = c.daemonBase := by
  rw [← String.toList_inj, daemonBase_toList]
  show c.daemonBase.toList.rdropWhile _ = _
  rw [daemonBase_toList, List.rdropWhile_idempotent]

/-- What is left is a URL as long as the URL names anything. -/
theorem isHttpUrl_daemonBase_iff (h : isHttpUrl c.daemonUrl = true) :
    isHttpUrl c.daemonBase = true ↔ ¬Hollow c.daemonUrl := by
  constructor
  · rintro hbase ⟨scheme, hscheme, slashes, hurl, hslashes⟩
    have hleft : c.daemonBase.toList = scheme.rdropWhile (· == '/') := by
      rw [daemonBase_toList, hurl]
      exact Text.rdropWhile_append_of_forall fun x hx => beq_iff_eq.mpr (hslashes x hx)
    -- The scheme has lost its slashes as well.
    have hbare : c.daemonBase = "http:" ∨ c.daemonBase = "https:" := by
      rw [← String.toList_inj, ← String.toList_inj, hleft]
      rcases List.mem_cons.mp hscheme with rfl | hscheme
      · exact .inl rfl
      · cases List.mem_singleton.mp hscheme
        exact .inr rfl
    rcases hbare with hbare | hbare
    · rw [hbare] at hbase
      exact absurd hbase (by decide)
    · rw [hbare] at hbase
      exact absurd hbase (by decide)
  · intro hfull
    obtain ⟨scheme, hscheme, rest, hrest, hurl⟩ := isHttpUrl_iff.mp h
    have hleft : rest.rdropWhile (· == '/') ≠ [] := by
      rw [ne_eq, List.rdropWhile_eq_nil_iff]
      intro hslashes
      exact hfull ⟨scheme, hscheme, rest, hurl, fun x hx => eq_of_beq (hslashes x hx)⟩
    refine isHttpUrl_iff.mpr ⟨scheme, hscheme, _, hleft, ?_⟩
    rw [daemonBase_toList, hurl, Text.rdropWhile_append_of_ne_nil hleft]

/-- A configuration is accepted with URLs only. -/
theorem urls_of_validate (h : validate c = .ok ()) :
    isHttpUrl c.daemonUrl = true ∧ isHttpUrl c.corsOrigin = true := by
  unfold validate at h
  split_ifs at h with _ _ _ _ hdaemon horigin
  exact ⟨by simpa using hdaemon, by simpa using horigin⟩

end Config
end BotFleet
