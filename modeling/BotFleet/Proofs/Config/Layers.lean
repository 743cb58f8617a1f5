import BotFleet.Config.Environment
import BotFleet.Proofs.Text.Blank
import BotFleet.Proofs.Text.Numeral

/-
How the layers of a configuration add up.

The environment is a layer like the others once its numbers have been read.  `Writes` says
which texts give a number, `Garbled` that a variable is set to a text that gives none, and
these are the only reason for an environment to be refused.

A layer over another one is a layer again, so the settings of two environments may be put
together first.  And a layer may be written out as an environment, so settings may come from
a program as well.

The theorem this file exists for is `layers_agree`.
-/

namespace BotFleet

/-! ## Numbers among blanks -/

theorem Text.isBlank_of_isDigit {c : Char} (h : c.isDigit = true) : isBlank c = false := by
  simp only [Char.isDigit, Bool.and_eq_true, decide_eq_true_eq, ge_iff_le,
    UInt32.le_iff_toNat_le] at h
  have hrange : 48 ≤ c.toNat ∧ c.toNat ≤ 57 := h
  simp only [isBlank, blankRanges, List.any_cons, List.any_nil, Bool.or_eq_false_iff,
    Bool.and_eq_false_iff, decide_eq_false_iff_not, and_true]
  omega

theorem Numeral.Decimal.solid {n : Nat} {s : List Char} (h : Decimal n s) : Text.Solid s := by
  have hdigits {ds : List Char} (hd : ∀ c ∈ ds, c.isDigit = true) :
      ∀ c ∈ ds, Text.isBlank c = false := fun c hc => Text.isBlank_of_isDigit (hd c hc)
  rcases h with h | ⟨ds, rfl, h⟩
  · exact ⟨fun c hc => hdigits h.digits c (List.mem_of_mem_head? hc),
      fun c hc => hdigits h.digits c (List.mem_of_mem_getLast? hc)⟩
  · refine ⟨fun c hc => ?_, fun c hc => ?_⟩
    · cases hc
      decide
    · rw [List.getLast?_cons_of_ne_nil h.nonempty] at hc
      exact hdigits h.digits c (List.mem_of_mem_getLast? hc)

namespace Config

variable {hi : Int} {key text : String} {env : Environment} {n : Ranged 0 hi}

/-- The text gives the number in decimal digits, and there may be blanks around them. -/
def Writes (text : String) (n : Ranged 0 hi) : Prop :=
  ∃ s, Text.Between s text.toList ∧ Numeral.Decimal n.val.toNat s

/-- The variable is set to a text that gives no number of the range. -/
def Garbled (hi : Int) (key : String) (env : Environment) : Prop :=
  ∃ text, env key = some text ∧ ∀ n : Ranged 0 hi, ¬Writes text n

theorem read_trim_eq_ok_iff {m : Int} (hhi : 0 ≤ hi) :
    Numeral.read 0 hi (Text.trim text.toList) = .ok m ↔
      ∃ n : Ranged 0 hi, m = n.val ∧ Writes text n := by
  rw [Numeral.read_zero_eq_ok_iff hhi]
  constructor
  · rintro ⟨k, rfl, hle, hdecimal⟩
    exact ⟨⟨k, Int.natCast_nonneg k, hle⟩, rfl, _, Text.between_trim _, hdecimal⟩
  · rintro ⟨n, rfl, s, hbetween, hdecimal⟩
    have hval : n.val = (n.val.toNat : Int) := by
      have hlo := n.property.1
      omega
    refine ⟨n.val.toNat, hval, n.property.2, ?_⟩
    rwa [Text.trim_of_between hdecimal.solid hbetween]

theorem numberVariable_of_unset {lo : Int} (h : env key = none) :
    numberVariable lo hi key env = .ok none := by
  rw [numberVariable, h]

theorem numberVariable_of_writes (hhi : 0 ≤ hi) (h : env key = some text) (hn : Writes text n) :
    numberVariable 0 hi key env = .ok (some n) := by
  have hread := (read_trim_eq_ok_iff hhi).mpr ⟨n, rfl, hn⟩
  rw [numberVariable, h]
  simp only [hread, Ranged.ofInt?_val]

theorem numberVariable_of_garbled (hhi : 0 ≤ hi) (h : Garbled hi key env) :
    ∃ f : Numeral.Fault, numberVariable 0 hi key env = .error (.invalidValue key f.message) := by
  obtain ⟨text, htext, hnone⟩ := h
  rw [numberVariable, htext]
  cases hread : Numeral.read 0 hi (Text.trim text.toList) with
  | error f => exact ⟨f, by simp only [hread]⟩
  | ok m =>
    obtain ⟨n, -, hn⟩ := (read_trim_eq_ok_iff hhi).mp hread
    exact absurd hn (hnone n)

/-- A text gives one number at most. -/
theorem Writes.unique {m : Ranged 0 hi} (hhi : 0 ≤ hi) (hm : Writes text m) (hn : Writes text n) :
    m = n := by
  have hread {k : Ranged 0 hi} (hk : Writes text k) :
      numberVariable 0 hi "" (fun _ => some text) = .ok (some k) :=
    numberVariable_of_writes hhi rfl hk
  have hsame := (hread hm).symm.trans (hread hn)
  injection hsame with hsame
  exact Option.some.inj hsame

theorem numberVariable_cases (hi : Int) (key : String) (env : Environment) :
    env key = none ∨ (∃ text, ∃ n : Ranged 0 hi, env key = some text ∧ Writes text n) ∨
      Garbled hi key env := by
  cases htext : env key with
  | none => exact .inl rfl
  | some text =>
    by_cases hn : ∃ n : Ranged 0 hi, Writes text n
    · obtain ⟨n, hn⟩ := hn
      exact .inr (.inl ⟨text, n, rfl, hn⟩)
    · exact .inr (.inr ⟨text, htext, fun n hw => hn ⟨n, hw⟩⟩)

/-- A variable that is set is read as the number that its text gives. -/
theorem numberVariable_eq_ok_iff (hhi : 0 ≤ hi) {value : Option (Ranged 0 hi)} :
    numberVariable 0 hi key env = .ok value ↔ Option.Rel Writes (env key) value := by
  rcases numberVariable_cases hi key env with hunset | ⟨text, n, htext, hn⟩ | hgarbled
  · rw [numberVariable_of_unset hunset, hunset]
    constructor
    · rintro ⟨⟩
      exact .none
    · rintro ⟨⟩
      rfl
  · rw [numberVariable_of_writes hhi htext hn, htext]
    constructor
    · rintro ⟨⟩
      exact .some hn
    · rintro ⟨hm⟩
      rw [hm.unique hhi hn]
  · obtain ⟨f, hf⟩ := numberVariable_of_garbled hhi hgarbled
    obtain ⟨text, htext, hnone⟩ := hgarbled
    rw [hf, htext]
    refine iff_of_false nofun ?_
    rintro ⟨hm⟩
    exact hnone _ hm

theorem exists_numberVariable (hhi : 0 ≤ hi) (h : ¬Garbled hi key env) :
    ∃ value, numberVariable 0 hi key env = .ok value := by
  rcases numberVariable_cases hi key env with hunset | ⟨text, n, htext, hn⟩ | hgarbled
  · exact ⟨none, numberVariable_of_unset hunset⟩
  · exact ⟨some n, numberVariable_of_writes hhi htext hn⟩
  · exact absurd hgarbled h

/-! ## The environment as a layer -/

/-- The life of a session token is set to a text that gives none. -/
abbrev GarbledHours (env : Environment) : Prop :=
  Garbled 18446744073709551615 "YAMBA_TOKEN_TTL_HOURS" env

/-- The cost of a hash is set to a text that gives none. -/
abbrev GarbledCost (env : Environment) : Prop := Garbled 4294967295 "YAMBA_BCRYPT_COST" env

/-- The layer has what the variables are set to, field by field. -/
structure Layer.Reads (l : Layer) (env : Environment) : Prop where
  bindAddress : l.bindAddress = env "YAMBA_BIND"
  databaseUrl : l.databaseUrl = env "DATABASE_URL"
  secret : l.secret = env "JWT_SECRET"
  tokenHours : Option.Rel Writes (env "YAMBA_TOKEN_TTL_HOURS") l.tokenHours
  daemonUrl : l.daemonUrl = env "YAMBA_DAEMON_URL"
  corsOrigin : l.corsOrigin = env "YAMBA_CORS_ORIGIN"
  hashCost : Option.Rel Writes (env "YAMBA_BCRYPT_COST") l.hashCost

variable {l : Layer} {c : Config}

theorem ofEnvironment_eq_ok_iff : ofEnvironment env = .ok l ↔ l.Reads env := by
  rw [ofEnvironment]
  constructor
  · intro h
    cases hhours : (numberVariable 0 18446744073709551615 "YAMBA_TOKEN_TTL_HOURS" env) with
    | error f =>
      rw [hhours] at h
      cases h
    | ok hours =>
      rw [hhours] at h
      cases hcost : (numberVariable 0 4294967295 "YAMBA_BCRYPT_COST" env) with
      | error f =>
        rw [hcost] at h
        cases h
      | ok cost =>
        rw [hcost] at h
        cases h
        exact ⟨rfl, rfl, rfl, (numberVariable_eq_ok_iff (by decide)).mp hhours, rfl, rfl,
          (numberVariable_eq_ok_iff (by decide)).mp hcost⟩
  · rintro ⟨hbind, hdatabase, hsecret, hhours, hdaemon, horigin, hcost⟩
    rw [(numberVariable_eq_ok_iff (by decide)).mpr hhours,
      (numberVariable_eq_ok_iff (by decide)).mpr hcost]
    rw [← hbind, ← hdatabase, ← hsecret, ← hdaemon, ← horigin]
    rfl

theorem ofEnvironment_of_garbledHours (h : GarbledHours env) :
    ∃ f : Numeral.Fault,
      ofEnvironment env = .error (.invalidValue "YAMBA_TOKEN_TTL_HOURS" f.message) := by
  obtain ⟨f, hf⟩ := numberVariable_of_garbled (by decide) h
  refine ⟨f, ?_⟩
  rw [ofEnvironment, hf]
  rfl

/-- The life of a session token is looked at before the cost of a hash. -/
theorem ofEnvironment_of_garbledCost (hhours : ¬GarbledHours env) (h : GarbledCost env) :
    ∃ f : Numeral.Fault,
      ofEnvironment env = .error (.invalidValue "YAMBA_BCRYPT_COST" f.message) := by
  obtain ⟨f, hf⟩ := numberVariable_of_garbled (by decide) h
  obtain ⟨hours, hread⟩ := exists_numberVariable (by decide) hhours
  refine ⟨f, ?_⟩
  rw [ofEnvironment, hread]
  show (numberVariable 0 4294967295 "YAMBA_BCRYPT_COST" env >>= _) = _
  rw [hf]
  rfl

theorem ofEnvironment_of_not_garbled (hhours : ¬GarbledHours env) (hcost : ¬GarbledCost env) :
    ∃ l, ofEnvironment env = .ok l := by
  obtain ⟨hours, hhours⟩ := exists_numberVariable (by decide) hhours
  obtain ⟨cost, hcost⟩ := exists_numberVariable (by decide) hcost
  rw [ofEnvironment, hhours]
  show ∃ l, (numberVariable 0 4294967295 "YAMBA_BCRYPT_COST" env >>= _) = _
  rw [hcost]
  exact ⟨_, rfl⟩

/-! ## Several layers -/

/-- The layer that has what the upper layer has, and else what the lower one has. -/
def Layer.over (upper lower : Layer) : Layer where
  bindAddress := upper.bindAddress.or lower.bindAddress
  databaseUrl := upper.databaseUrl.or lower.databaseUrl
  secret := upper.secret.or lower.secret
  tokenHours := upper.tokenHours.or lower.tokenHours
  daemonUrl := upper.daemonUrl.or lower.daemonUrl
  corsOrigin := upper.corsOrigin.or lower.corsOrigin
  hashCost := upper.hashCost.or lower.hashCost

/-- The settings of both environments, and those of the upper one where both have one. -/
def Environment.over (upper lower : Environment) : Environment := fun key =>
  (upper key).or (lower key)

theorem getD_or {α : Type} (a b : Option α) (x : α) : (a.or b).getD x = a.getD (b.getD x) := by
  cases a <;> rfl

theorem overlay_over (c : Config) (upper lower : Layer) :
    c.overlay (upper.over lower) = (c.overlay lower).overlay upper := by
  simp only [overlay, Layer.over, getD_or]

theorem rel_or {α β : Type} {r : α → β → Prop} {a a' : Option α} {b b' : Option β}
    (h : Option.Rel r a b) (h' : Option.Rel r a' b') : Option.Rel r (a.or a') (b.or b') := by
  cases h with
  | none => exact h'
  | some h => exact .some h

theorem Layer.Reads.over {upper lower : Layer} {above below : Environment}
    (hupper : upper.Reads above) (hlower : lower.Reads below) :
    (upper.over lower).Reads (above.over below) where
  bindAddress := congrArg₂ Option.or hupper.bindAddress hlower.bindAddress
  databaseUrl := congrArg₂ Option.or hupper.databaseUrl hlower.databaseUrl
  secret := congrArg₂ Option.or hupper.secret hlower.secret
  tokenHours := rel_or hupper.tokenHours hlower.tokenHours
  daemonUrl := congrArg₂ Option.or hupper.daemonUrl hlower.daemonUrl
  corsOrigin := congrArg₂ Option.or hupper.corsOrigin hlower.corsOrigin
  hashCost := rel_or hupper.hashCost hlower.hashCost

theorem withEnvironment_eq_ok_iff {c' : Config} :
    c.withEnvironment env = .ok c' ↔ ∃ l : Layer, l.Reads env ∧ c.overlay l = c' := by
  rw [withEnvironment]
  constructor
  · intro h
    obtain ⟨l, hl, rfl⟩ := Json.map_eq_ok h
    exact ⟨l, ofEnvironment_eq_ok_iff.mp hl, rfl⟩
  · rintro ⟨l, hl, rfl⟩
    rw [ofEnvironment_eq_ok_iff.mpr hl]
    rfl

/-- One environment after another is the two of them together. -/
theorem withEnvironment_over {c₁ c₂ : Config} {e₁ e₂ : Environment}
    (h₁ : c.withEnvironment e₁ = .ok c₁) (h₂ : c₁.withEnvironment e₂ = .ok c₂) :
    c.withEnvironment (e₂.over e₁) = .ok c₂ := by
  obtain ⟨lower, hlower, rfl⟩ := withEnvironment_eq_ok_iff.mp h₁
  obtain ⟨upper, hupper, rfl⟩ := withEnvironment_eq_ok_iff.mp h₂
  exact withEnvironment_eq_ok_iff.mpr ⟨_, hupper.over hlower, overlay_over c upper lower⟩

/-! ## A layer written out as an environment -/

/-- The layer in text form. -/
def Layer.asEnvironment (l : Layer) : Environment
  | "YAMBA_BIND" => l.bindAddress
  | "DATABASE_URL" => l.databaseUrl
  | "JWT_SECRET" => l.secret
  | "YAMBA_TOKEN_TTL_HOURS" => l.tokenHours.map fun n => Numeral.ofInt n.val
  | "YAMBA_DAEMON_URL" => l.daemonUrl
  | "YAMBA_CORS_ORIGIN" => l.corsOrigin
  | "YAMBA_BCRYPT_COST" => l.hashCost.map fun n => Numeral.ofInt n.val
  | _ => none

theorem writes_ofInt (n : Ranged 0 hi) : Writes (Numeral.ofInt n.val) n :=
  ⟨_, ⟨[], [], (List.append_nil _).symm, nofun, nofun⟩, Numeral.decimal_ofInt n.property.1⟩

theorem rel_ofInt (n : Option (Ranged 0 hi)) :
    Option.Rel Writes (n.map fun n => Numeral.ofInt n.val) n := by
  cases n with
  | none => exact .none
  | some n => exact .some (writes_ofInt n)

theorem Layer.reads_asEnvironment (l : Layer) : l.Reads l.asEnvironment where
  bindAddress := rfl
  databaseUrl := rfl
  secret := rfl
  tokenHours := rel_ofInt l.tokenHours
  daemonUrl := rfl
  corsOrigin := rfl
  hashCost := rel_ofInt l.hashCost

/-- Settings that a program gives are taken as those that an environment gives. -/
theorem build_eq (l : Layer) :
    build l = (default.withEnvironment l.asEnvironment).bind fun c =>
      (validate c).map fun _ => c := by
  rw [withEnvironment_eq_ok_iff.mpr ⟨l, l.reads_asEnvironment, rfl⟩]
  rfl

/-! ## A file below an environment -/

/-- The entries of a file give the layer. -/
structure Gives (file : Toml.Entries) (l : Layer) : Prop where
  bindAddress : List.lookup "bind_address" file = l.bindAddress.map .string
  databaseUrl : List.lookup "database_url" file = l.databaseUrl.map .string
  secret : List.lookup "jwt_secret" file = l.secret.map .string
  tokenHours : List.lookup "token_ttl_hours" file = l.tokenHours.map fun n => .integer n.val
  daemonUrl : List.lookup "daemon_url" file = l.daemonUrl.map .string
  corsOrigin : List.lookup "cors_origin" file = l.corsOrigin.map .string
  hashCost : List.lookup "bcrypt_cost" file = l.hashCost.map fun n => .integer n.val

variable {fault : Fault} {file : Toml.Entries}

theorem textEntry_of_lookup {value : Option String}
    (h : List.lookup key file = value.map .string) : textEntry fault key file = .ok value := by
  rw [textEntry, h]
  cases value <;> rfl

theorem numberEntry_of_lookup {value : Option (Ranged 0 hi)}
    (h : List.lookup key file = value.map fun n => .integer n.val) :
    numberEntry fault 0 hi key file = .ok value := by
  rw [numberEntry, h]
  cases value with
  | none => rfl
  | some n => simp only [Option.map_some, Ranged.ofInt?_val]

theorem Gives.ofEntries (h : Gives file l) : ofEntries fault file = .ok l := by
  rw [Config.ofEntries]
  rw [textEntry_of_lookup h.bindAddress, textEntry_of_lookup h.databaseUrl,
    textEntry_of_lookup h.secret, numberEntry_of_lookup h.tokenHours,
    textEntry_of_lookup h.daemonUrl, textEntry_of_lookup h.corsOrigin,
    numberEntry_of_lookup h.hashCost]
  rfl

/-- The number of the text if there is one, and else the number below. -/
def Chosen (text : Option String) (below n : Ranged 0 hi) : Prop :=
  match text with
  | some text => Writes text n
  | none => n = below

/-- Each field has the value of the environment if its variable is set, and else that of the
file, and else the built-in one. -/
structure Layered (l : Layer) (env : Environment) (c : Config) : Prop where
  bindAddress : c.bindAddress = ((env "YAMBA_BIND").or l.bindAddress).getD default.bindAddress
  databaseUrl : c.databaseUrl = ((env "DATABASE_URL").or l.databaseUrl).getD default.databaseUrl
  secret : c.secret = ((env "JWT_SECRET").or l.secret).getD default.secret
  tokenHours : Chosen (env "YAMBA_TOKEN_TTL_HOURS") (l.tokenHours.getD default.tokenHours)
    c.tokenHours
  daemonUrl : c.daemonUrl = ((env "YAMBA_DAEMON_URL").or l.daemonUrl).getD default.daemonUrl
  corsOrigin : c.corsOrigin = ((env "YAMBA_CORS_ORIGIN").or l.corsOrigin).getD default.corsOrigin
  hashCost : Chosen (env "YAMBA_BCRYPT_COST") (l.hashCost.getD default.hashCost) c.hashCost

/-- What comes of a layer and an environment over it.  The environment is refused only for a
number that is none, and of two of them the first one is reported. -/
structure Loads (l : Layer) (env : Environment) (loaded : Except Fault Config) : Prop where
  fields : ∀ c, loaded = .ok c → Layered l env c
  succeeds : (∃ c, loaded = .ok c) ↔ ¬GarbledHours env ∧ ¬GarbledCost env
  hours : (∃ f : Numeral.Fault,
    loaded = .error (.invalidValue "YAMBA_TOKEN_TTL_HOURS" f.message)) ↔ GarbledHours env
  cost : (∃ f : Numeral.Fault,
    loaded = .error (.invalidValue "YAMBA_BCRYPT_COST" f.message)) ↔
      ¬GarbledHours env ∧ GarbledCost env

theorem chosen_of_rel {text : Option String} {value : Option (Ranged 0 hi)}
    (h : Option.Rel Writes text value) (below : Ranged 0 hi) :
    Chosen text below (value.getD below) := by
  cases h with
  | none => rfl
  | some h => exact h

theorem layered_of_reads {upper : Layer} (h : upper.Reads env) (l : Layer) :
    Layered l env ((default.overlay l).overlay upper) where
  bindAddress := by rw [← h.bindAddress, getD_or]; rfl
  databaseUrl := by rw [← h.databaseUrl, getD_or]; rfl
  secret := by rw [← h.secret, getD_or]; rfl
  tokenHours := chosen_of_rel h.tokenHours _
  daemonUrl := by rw [← h.daemonUrl, getD_or]; rfl
  corsOrigin := by rw [← h.corsOrigin, getD_or]; rfl
  hashCost := chosen_of_rel h.hashCost _

theorem loads (l : Layer) (env : Environment) :
    Loads l env ((default.overlay l).withEnvironment env) := by
  rw [withEnvironment]
  by_cases hhours : GarbledHours env
  · obtain ⟨f, hf⟩ := ofEnvironment_of_garbledHours hhours
    rw [hf]
    exact {
      fields := nofun
      succeeds := iff_of_false nofun fun h => h.1 hhours
      hours := iff_of_true ⟨f, rfl⟩ hhours
      cost := iff_of_false (by simp [Except.map]) fun h => h.1 hhours }
  · by_cases hcost : GarbledCost env
    · obtain ⟨f, hf⟩ := ofEnvironment_of_garbledCost hhours hcost
      rw [hf]
      exact {
        fields := nofun
        succeeds := iff_of_false nofun fun h => h.2 hcost
        hours := iff_of_false (by simp [Except.map]) hhours
        cost := iff_of_true ⟨f, rfl⟩ ⟨hhours, hcost⟩ }
    · obtain ⟨upper, hupper⟩ := ofEnvironment_of_not_garbled hhours hcost
      have hreads := ofEnvironment_eq_ok_iff.mp hupper
      rw [hupper]
      exact {
        fields := by
          rintro c ⟨⟩
          exact layered_of_reads hreads l
        succeeds := iff_of_true ⟨_, rfl⟩ ⟨hhours, hcost⟩
        hours := iff_of_false nofun hhours
        cost := iff_of_false nofun fun h => hcost h.2 }

/-- Whatever a file gives and whatever the environment is set to, each field of what is loaded
has the value of the uppermost layer that has one, and loading fails only for a number of the
environment that is none.  One environment after another is the two of them together, and
settings that a program gives are taken as those that an environment gives. -/
theorem layers_agree :
    (∀ explain text file l env, Toml.parse? text = some file → Gives file l →
      Loads l env ((ofFile explain text).bind fun c => c.withEnvironment env)) ∧
    (∀ (c c₁ c₂ : Config) (e₁ e₂ : Environment), c.withEnvironment e₁ = .ok c₁ →
      c₁.withEnvironment e₂ = .ok c₂ →
        c.withEnvironment (fun key => (e₂ key).or (e₁ key)) = .ok c₂) ∧
    ∀ l : Layer, build l = (default.withEnvironment l.asEnvironment).bind fun c =>
      (validate c).map fun _ => c := by
  refine ⟨fun explain text file l env htext hgives => ?_, fun _ _ _ _ _ => withEnvironment_over,
    build_eq⟩
  have hfile : ofFile explain text = .ok (default.overlay l) := by
    rw [ofFile, htext]
    simp only [hgives.ofEntries]
    rfl
  rw [hfile]
  exact loads l env

/-- A file that sets the life of a session token and the cost of a hash. -/
def fileText : String := "token_ttl_hours = 48\nbcrypt_cost = 5\n"

def fileLayer : Layer :=
  { Layer.empty with tokenHours := some ⟨48, by decide⟩, hashCost := some ⟨5, by decide⟩ }

theorem gives_fileText : ∃ file, Toml.parse? fileText = some file ∧ Gives file fileLayer :=
  ⟨[("token_ttl_hours", .integer 48), ("bcrypt_cost", .integer 5)], by rfl,
    ⟨rfl, rfl, rfl, rfl, rfl, rfl, rfl⟩⟩

/-- A parser that gives no reasons. -/
def silent : String → String := fun _ => ""

/-- With three days for the life of a session token. -/
def threeDays : Environment
  | "YAMBA_TOKEN_TTL_HOURS" => some " +72 "
  | _ => none

def elsewhere : Environment
  | "YAMBA_BIND" => some "0.0.0.0:80"
  | _ => none

/-- The life of a session token is that of the environment and the cost of a hash that of the
file.  The environments may be put together first. -/
theorem fileText_layered :
    (∃ c, ((ofFile silent fileText).bind fun c => c.withEnvironment threeDays) = .ok c ∧
        Layered fileLayer threeDays c ∧ c.tokenHours.val = 72 ∧ c.hashCost.val = 5) ∧
      default.withEnvironment (fun key => (elsewhere key).or (threeDays key)) =
        .ok { default with tokenHours := ⟨72, by decide⟩, bindAddress := "0.0.0.0:80" } := by
  obtain ⟨hloads, hover, -⟩ := layers_agree
  obtain ⟨file, hparse, hgives⟩ := gives_fileText
  refine ⟨⟨{ default with tokenHours := ⟨72, by decide⟩, hashCost := ⟨5, by decide⟩ }, rfl,
    (hloads silent fileText file fileLayer threeDays hparse hgives).fields _ rfl, rfl, rfl⟩, ?_⟩
  exact hover default { default with tokenHours := ⟨72, by decide⟩ } _ threeDays elsewhere rfl rfl

end Config
end BotFleet
