import BotFleet.Proofs.Service.Gate
import BotFleet.Proofs.Service.Listing
import BotFleet.Proofs.Service.Validity
import BotFleet.Proofs.Text.Utf8

/-
Names that are refused as too long.

A name may have 255 characters, and the rule for names says so to whoever breaks it, but
what it counts are bytes.  A user name has as many of one as of the other, since it is
made of letters that take one byte each.  Names of groups and instances may hold any
characters, and those beyond the first 128 take up to four bytes.  `Miscounted` are the
names that are refused although they are short enough; apart from them the limit is what
it says it is.

The theorem this file exists for is `names_limited_unless_miscounted`.
-/

namespace BotFleet

/-! ## Characters and bytes -/

namespace Utf8

theorem length_le_length_encode (s : List Char) :
    s.length ≤ (encode s).length ∧ (encode s).length ≤ 4 * s.length := by
  induction s with
  | nil => exact ⟨Nat.le_refl _, Nat.le_refl _⟩
  | cons c s ih =>
    have hpos := Char.utf8Size_pos c
    have hle := Char.utf8Size_le_four c
    have hcons : encode (c :: s) = String.utf8EncodeChar c ++ encode s := rfl
    rw [hcons, List.length_append, String.length_utf8EncodeChar, List.length_cons]
    omega

end Utf8

namespace Validation

/-- The text has at most 255 characters, but more bytes than that. -/
def Miscounted (t : String) : Prop := t.length ≤ 255 ∧ 255 < t.utf8ByteSize

/-- The text has a character that is not blank. -/
def Shows (t : String) : Prop := ∃ c ∈ t.toList, Text.isBlank c = false

variable {t field : String}

theorem length_le_size (t : String) : t.length ≤ t.utf8ByteSize := by
  rw [← Utf8.length_encode, ← String.length_toList]
  exact (Utf8.length_le_length_encode t.toList).1

theorem size_le (t : String) : t.utf8ByteSize ≤ 4 * t.length := by
  rw [← Utf8.length_encode, ← String.length_toList]
  exact (Utf8.length_le_length_encode t.toList).2

theorem size_eq_length (h : ∀ c ∈ t.toList, c.toNat < 128) : t.utf8ByteSize = t.length := by
  rw [← Utf8.length_encode, ← String.length_toList]
  refine Utf8.length_encode_of_utf8Size fun c hc => Char.utf8Size_eq_one_iff.mpr ?_
  have hlt := h c hc
  rw [UInt32.le_iff_toNat_le]
  exact Nat.le_of_lt_succ hlt

theorem trim_isEmpty_iff : (Text.trim t.toList).isEmpty = false ↔ Shows t := by
  rw [List.isEmpty_eq_false_iff, ne_eq, Text.trim_eq_nil_iff]
  simp [Shows]

/-- What the rule for names takes for too long. -/
theorem size_lt_iff : 255 < t.utf8ByteSize ↔ 255 < t.length ∨ Miscounted t := by
  have hle := length_le_size t
  rw [Miscounted]
  omega

theorem name_eq_ok_iff :
    name field t = .ok () ↔ Shows t ∧ t.length ≤ 255 ∧ ¬Miscounted t := by
  have hlong : t.length ≤ 255 ∧ ¬Miscounted t ↔ ¬255 < t.utf8ByteSize := by
    rw [size_lt_iff, not_or, Nat.not_lt]
  rw [hlong, ← trim_isEmpty_iff, name]
  cases (Text.trim t.toList).isEmpty <;> by_cases hsize : 255 < t.utf8ByteSize <;> simp [hsize]

theorem name_eq_tooLong_iff :
    name field t = .error ⟨field, longField⟩ ↔ Shows t ∧ (255 < t.length ∨ Miscounted t) := by
  have hmessage : emptyField ≠ longField := by decide
  rw [← size_lt_iff, ← trim_isEmpty_iff, name]
  cases (Text.trim t.toList).isEmpty <;> by_cases hsize : 255 < t.utf8ByteSize <;>
    simp [hsize, hmessage]

/-- What a user name may be made of. -/
def Plain (c : Char) : Prop :=
  ('a' ≤ c ∧ c ≤ 'z') ∨ ('A' ≤ c ∧ c ≤ 'Z') ∨ ('0' ≤ c ∧ c ≤ '9') ∨ c = '_' ∨ c = '-' ∨ c = '.'

theorem isNameCharacter_iff {c : Char} : isNameCharacter c = true ↔ Plain c := by
  show (decide (c.val ≥ 'A'.val ∧ c.val ≤ 'Z'.val) ||
    (decide (c.val ≥ 'a'.val) && decide (c.val ≤ 'z'.val)) ||
    (decide (c.val ≥ '0'.val) && decide (c.val ≤ '9'.val)) ||
    c == '_' || c == '-' || c == '.') = true ↔ _
  simp only [Bool.or_eq_true, Bool.and_eq_true, decide_eq_true_eq, beq_iff_eq, Plain,
    Char.le_def, ge_iff_le]
  tauto

theorem Plain.toNat_lt {c : Char} (h : Plain c) : c.toNat < 128 := by
  have hval : c.toNat = c.val.toNat := rfl
  have hlower : 'z'.val.toNat = 122 := rfl
  have hupper : 'Z'.val.toNat = 90 := rfl
  have hdigit : '9'.val.toNat = 57 := rfl
  simp only [Plain, Char.le_def, UInt32.le_iff_toNat_le] at h
  rcases h with h | h | h | h | h | h
  · omega
  · omega
  · omega
  · rw [h]; decide
  · rw [h]; decide
  · rw [h]; decide

/-- The rule for user names does not count wrongly, since it admits no character of more than
one byte. -/
theorem username_eq_ok_iff :
    username t = .ok () ↔ 1 ≤ t.length ∧ t.length ≤ 255 ∧ ∀ c ∈ t.toList, Plain c := by
  have hempty : t.isEmpty = true ↔ ¬1 ≤ t.length := by
    rw [String.isEmpty_iff, ← String.toList_eq_nil_iff, ← String.length_toList,
      ← List.length_eq_zero_iff]
    omega
  have hall : t.toList.all isNameCharacter = true ↔ ∀ c ∈ t.toList, Plain c := by
    simp only [List.all_eq_true, isNameCharacter_iff]
  have hle := length_le_size t
  rw [username, ← hall]
  by_cases hlength : 1 ≤ t.length
  · rw [if_neg (fun h => hempty.mp h hlength)]
    by_cases hsize : 255 < t.utf8ByteSize
    · rw [if_pos hsize]
      refine iff_of_false nofun fun ⟨_, hlimit, hplain⟩ => ?_
      have hsame := size_eq_length fun c hc => (hall.mp hplain c hc).toNat_lt
      omega
    · have hlimit : t.length ≤ 255 := by omega
      rw [if_neg hsize]
      by_cases hplain : t.toList.all isNameCharacter = true
      · rw [if_pos hplain]
        exact iff_of_true rfl ⟨hlength, hlimit, hplain⟩
      · rw [if_neg hplain]
        exact iff_of_false nofun fun h => hplain h.2.2
  · rw [if_pos (hempty.mpr hlength)]
    simp [hlength]

theorem not_miscounted_of_ascii (h : ∀ c ∈ t.toList, c.toNat < 128) : ¬Miscounted t := by
  rw [Miscounted, size_eq_length h]
  omega

theorem not_miscounted_of_length_le (h : t.length ≤ 63) : ¬Miscounted t := by
  have hle := size_le t
  rw [Miscounted]
  omega

theorem name_error {v : Violation} (h : name field t = .error v) :
    v = ⟨field, emptyField⟩ ∨ v = ⟨field, longField⟩ := by
  unfold name at h
  split at h
  · cases h
    exact .inl rfl
  · split at h
    · cases h
      exact .inr rfl
    · cases h

end Validation

/-- What the settings of an instance can be refused for, and the name of a group too. -/
def Settings.violations : List Violation :=
  [⟨"name", Validation.emptyField⟩, ⟨"name", Validation.longField⟩,
    ⟨"host", Validation.emptyField⟩, ⟨"host", Validation.longField⟩, ⟨"port", Validation.noPort⟩]

theorem Validation.name_error_mem {t : String} {v : Violation} (h : name "name" t = .error v) :
    v ∈ Settings.violations := by
  rcases name_error h with h | h
  · rw [h]; decide
  · rw [h]; decide

namespace Settings

variable {settings : Settings} {v : Violation}

/-- The name is checked first, then the host and then the port. -/
theorem validate_error (h : settings.validate = .error v) :
    Validation.name "name" settings.name = .error v ∨
      Validation.name "host" settings.host = .error v ∨ v = ⟨"port", Validation.noPort⟩ := by
  unfold validate at h
  cases hname : Validation.name "name" settings.name with
  | error w =>
    rw [hname] at h
    exact .inl h
  | ok =>
    rw [hname] at h
    cases hhost : Validation.name "host" settings.host with
    | error w =>
      rw [hhost] at h
      exact .inr (.inl h)
    | ok =>
      rw [hhost] at h
      simp only [bind, Except.bind] at h
      split at h
      · cases h
        exact .inr (.inr rfl)
      · cases h

theorem validate_error_mem (h : settings.validate = .error v) : v ∈ violations := by
  rcases validate_error h with h | h | h
  · exact Validation.name_error_mem h
  · rcases Validation.name_error h with h | h
    · rw [h]; decide
    · rw [h]; decide
  · rw [h]; decide

theorem validate_eq_tooLong_iff :
    settings.validate = .error ⟨"name", Validation.longField⟩ ↔
      Validation.name "name" settings.name = .error ⟨"name", Validation.longField⟩ := by
  constructor
  · intro h
    rcases validate_error h with h | h | h
    · exact h
    · rcases Validation.name_error h with h | h
      · exact absurd h (by decide)
      · exact absurd h (by decide)
    · exact absurd h (by decide)
  · intro h
    unfold validate
    rw [h]
    rfl

end Settings

/-! ## The size of a request -/

theorem Json.length_escape_le (c : Char) : (escape c).length ≤ 6 := by
  unfold escape
  repeat' split
  all_goals simp

theorem Json.length_quote_le (s : List Char) : (quote s).length ≤ 6 * s.length + 2 := by
  have hescaped : (s.flatMap escape).length ≤ 6 * s.length := by
    induction s with
    | nil => exact Nat.le_refl _
    | cons c s ih =>
      have hc := length_escape_le c
      rw [List.flatMap_cons, List.length_append, List.length_cons]
      omega
  rw [quote, List.length_cons, List.length_append, List.length_singleton]
  omega

/-- The text of a request for a group is not much longer than the name. -/
theorem GroupRequest.size_write_le (name : String) :
    Utf8.size (Json.Message.write (GroupRequest.mk name)) ≤ 4 * (6 * name.length + 11) := by
  have hname := Json.length_quote_le name.toList
  have hbytes := Validation.size_le (Json.Message.write (GroupRequest.mk name))
  have htext : (Json.Message.write (GroupRequest.mk name)).length =
      (Json.quote name.toList).length + 9 := by
    rw [Json.Message.write, Json.toText, String.length_ofList]
    show ('{' :: (Json.quote "name".toList ++ ':' :: (Json.quote name.toList ++ ['}']))).length = _
    have hkey : (Json.quote "name".toList).length = 6 := by decide
    simp only [List.length_cons, List.length_append, List.length_nil, hkey]
    omega
  rw [String.length_toList] at hname
  show (Json.Message.write (GroupRequest.mk name)).utf8ByteSize ≤ _
  omega

namespace Service

open Http (Request)

/-! ## Operations that give a name -/

/-- The name that an operation gives a group or an instance. -/
def Operation.label? : Operation → Option String
  | createGroup request => some request.name
  | renameGroup _ request => some request.name
  | createInstance settings => some settings.name
  | editInstance _ settings => some settings.name
  | _ => none

/-- What an operation that gives such a name is checked for before anything is done. -/
def Operation.rule : Operation → Except Violation Unit
  | createGroup request => Validation.name "name" request.name
  | renameGroup _ request => Validation.name "name" request.name
  | createInstance settings => settings.validate
  | editInstance _ settings => settings.validate
  | _ => .ok ()

/-- The refusal of a name as too long. -/
def tooLong : Failure := .invalid ⟨"name", Validation.longField⟩

/-- The answer is the one to the failure. -/
def Served.Tells (failure : Failure) (served : Served) : Prop :=
  served.response.status = failure.status ∧ served.response.content = .json failure.body

namespace Action

/-- A store that fails is not the fault of the request. -/
theorem status_ne_of_call_bind {α β : Type} {f f' : Fleet} {failure : Failure}
    {g : Store → Store.Call α} {next : α → Action β} (hrun : (call g >>= next).run f = (.error failure, f'))
    (hnext : ∀ x store, (next x).run { f with store } = (.error failure, f') →
      failure.status ≠ 400) : failure.status ≠ 400 := by
  rcases run_call_bind_error hrun with ⟨fault, -, hfailure, -⟩ | ⟨x, store, -, hrun⟩
  · rw [hfailure]
    cases fault <;> simp [Failure.status]
  · exact hnext x store hrun

end Action

theorem status_missing_ne (resource : String) (id : Id) : (missing resource id).status ≠ 400 := by
  simp [missing, Failure.status]

namespace Operation

variable {c : Context} {sender : Sender} {s : State} {op : Operation} {t : String} {v : Violation}

theorem rule_error_mem (h : op.rule = .error v) : v ∈ Settings.violations := by
  cases op with
  | createGroup | renameGroup => exact Validation.name_error_mem h
  | createInstance | editInstance => exact Settings.validate_error_mem h
  | _ => cases h

theorem rule_eq_tooLong_iff (h : op.label? = some t) :
    op.rule = .error ⟨"name", Validation.longField⟩ ↔
      Validation.Shows t ∧ (255 < t.length ∨ Validation.Miscounted t) := by
  have hname : Validation.name "name" t = .error ⟨"name", Validation.longField⟩ ↔
      Validation.Shows t ∧ (255 < t.length ∨ Validation.Miscounted t) :=
    Validation.name_eq_tooLong_iff
  rw [← hname]
  cases op with
  | createGroup | renameGroup =>
    cases h
    exact Iff.rfl
  | createInstance | editInstance =>
    cases h
    exact Settings.validate_eq_tooLong_iff
  | _ => cases h

/-- The rule comes first. -/
theorem perform_of_rule_error (h : op.rule = .error v) :
    s.perform (op.perform c sender) = s.fail (.invalid v) := by
  have hcheck (next : Unit → Action Answer) := Action.run_check_bind_of_error h next s.fleet
  cases op with
  | createGroup | renameGroup | createInstance | editInstance =>
    exact State.perform_of_error (hcheck _)
  | _ => cases h

/-- An operation that keeps the rule fails in the store or for want of a row, if it fails. -/
theorem status_ne_of_error {f f' : Fleet} {failure : Failure} (hlabel : op.label? = some t)
    (h : op.rule = .ok ()) (hrun : (op.perform c sender).run f = (.error failure, f')) :
    failure.status ≠ 400 := by
  have hrest {next : Unit → Action Answer}
      (hrun : (Action.check op.rule >>= next).run f = (.error failure, f')) :
      (next ()).run f = (.error failure, f') :=
    (Action.run_check_bind_of_ok h next f).symm.trans hrun
  cases op with
  | createGroup | createInstance =>
    refine Action.status_ne_of_call_bind (hrest hrun) fun _ _ hdone => ?_
    cases hdone
  | renameGroup id =>
    refine Action.status_ne_of_call_bind (hrest hrun) fun renamed _ hdone => ?_
    cases renamed with
    | none =>
      cases hdone
      exact status_missing_ne "Group" id
    | some g => cases hdone
  | editInstance id settings =>
    have hrun := hrest hrun
    rw [Action.run_bind, Action.run_write] at hrun
    rcases hwrite : f.store.updateInstance id settings with ⟨_ | i, store⟩
    · rw [hwrite] at hrun
      cases hrun
      exact status_missing_ne "Instance" id
    · rw [hwrite] at hrun
      cases hrun
  | _ => cases hlabel

/-- An operation that keeps the rule is not answered as one that breaks it. -/
theorem status_of_rule_ok (hlabel : op.label? = some t) (h : op.rule = .ok ()) :
    (s.perform (op.perform c sender)).response.status ≠ 400 := by
  rcases hrun : (op.perform c sender).run s.fleet with ⟨failure | a, fleet⟩
  · rw [State.perform_of_error hrun]
    exact status_ne_of_error hlabel h hrun
  · rw [State.perform_of_ok hrun]
    show a.status ≠ 400
    have heffect : Effect c sender s.fleet op a fleet := Operation.perform_ok hrun
    cases heffect with
    | createGroup | createInstance => simp [Answer.created]
    | renameGroup | editInstance => simp [Answer.changed]
    | _ => cases hlabel

/-- Of all refusals that an operation may meet, one alone tells that a name is too long. -/
theorem fail_tells_iff (hv : v ∈ Settings.violations) :
    (s.fail (.invalid v)).Tells tooLong ↔ v = ⟨"name", Validation.longField⟩ := by
  have htexts : ∀ v ∈ Settings.violations,
      v.text = Violation.text ⟨"name", Validation.longField⟩ →
        v = ⟨"name", Validation.longField⟩ := by decide
  constructor
  · rintro ⟨-, hcontent⟩
    have hfields := Json.record.inj (Http.Content.json.inj hcontent)
    exact htexts v hv (Json.text.inj (Prod.mk.inj (List.cons.inj hfields).1).2)
  · intro h
    rw [h]
    exact ⟨rfl, rfl⟩

theorem perform_tells_iff (hlabel : op.label? = some t) :
    (s.perform (op.perform c sender)).Tells tooLong ↔
      Validation.Shows t ∧ (255 < t.length ∨ Validation.Miscounted t) := by
  rw [← rule_eq_tooLong_iff hlabel]
  cases hrule : op.rule with
  | error v =>
    rw [perform_of_rule_error hrule, fail_tells_iff (rule_error_mem hrule), Except.error.injEq]
  | ok =>
    refine iff_of_false (fun h => ?_) nofun
    exact status_of_rule_ok hlabel hrule h.1

theorem verb_ne_head {r : Request} (hop : State.operation? r = some op)
    (hlabel : op.label? = some t) : r.verb ≠ .head := by
  have htopic : ∃ topic, op.topic? = some topic := by
    cases op with
    | createGroup | renameGroup => exact ⟨_, rfl⟩
    | createInstance | editInstance => exact ⟨_, rfl⟩
    | _ => cases hlabel
  obtain ⟨topic, htopic⟩ := htopic
  intro hhead
  have hverb := ((State.topic?_of_operation? hop).mp htopic).1
  rw [hhead] at hverb
  exact absurd hverb (by decide)

end Operation

namespace State

variable {c : Context} {r : Request} {s : State} {sender : Sender} {op : Operation} {t : String}

theorem serve_tells_iff (hasked : s.asked c r = some (sender, op)) (hlabel : op.label? = some t) :
    (s.serve c r).Tells tooLong ↔
      Validation.Shows t ∧ (255 < t.length ∨ Validation.Miscounted t) := by
  have hhead := Operation.verb_ne_head (asked_eq_some_iff.mp hasked).2 hlabel
  rw [serve_of_asked hasked, finish, if_neg hhead]
  exact Operation.perform_tells_iff hlabel

/-- A name is accepted if it shows something and has at most 255 characters, unless it is
miscounted, and a user name if it has from one to 255 characters of those it may be made of.  No
text of ASCII characters and none of up to 63 characters is miscounted.  A request that gives a
group or an instance a name is told that the name is too long if it is, or if it is miscounted,
and in no other case. -/
theorem names_limited_unless_miscounted (t : String) :
    (∀ field : String, Validation.name field t = .ok () ↔
      Validation.Shows t ∧ t.length ≤ 255 ∧ ¬Validation.Miscounted t) ∧
    (Validation.username t = .ok () ↔
      1 ≤ t.length ∧ t.length ≤ 255 ∧ ∀ c ∈ t.toList, Validation.Plain c) ∧
    ((∀ c ∈ t.toList, c.toNat < 128) ∨ t.length ≤ 63 → ¬Validation.Miscounted t) ∧
    ∀ (s : State) (c : Context) (r : Request) (sender : Sender) (op : Operation),
      s.asked c r = some (sender, op) → op.label? = some t →
        ((s.serve c r).Tells tooLong ↔
          Validation.Shows t ∧ (255 < t.length ∨ Validation.Miscounted t)) :=
  ⟨fun _ => Validation.name_eq_ok_iff, Validation.username_eq_ok_iff,
    fun h => h.elim Validation.not_miscounted_of_ascii Validation.not_miscounted_of_length_le,
    fun _ _ _ _ _ => serve_tells_iff⟩

/-- The first account asks for a group of a name. -/
theorem asked_createGroup {d : Setup} {m : Moment} {name : String} (h : name.length ≤ 1000) :
    (first .refused).asked (d.context m)
        (byRoot (d.context m) (posting "/api/group" (GroupRequest.mk name))) =
      some (root, .createGroup ⟨name⟩) := by
  have hsize : Utf8.size (Json.Message.write (GroupRequest.mk name)) ≤ longestBody := by
    have hle := GroupRequest.size_write_le name
    have hlongest : longestBody = 2097152 := rfl
    omega
  have hroute : Route.ofPath? "/api/group" = some (.resource .groups) := by rfl
  have hreader : Resource.groups.reader? .post = some (.withBody Operation.createGroup) := rfl
  have hop := operation?_withBody hroute hreader ⟨by decide, trivial, trivial⟩ hsize
  exact asked_eq_some_iff.mpr ⟨identify_byRoot rfl _, (operation?_bearing _ _).trans hop⟩

/-- A name of one character, repeated. -/
def repeated (n : Nat) (c : Char) : String := String.ofList (List.replicate n c)

theorem length_repeated (n : Nat) (c : Char) : (repeated n c).length = n := by
  rw [repeated, String.length_ofList, List.length_replicate]

theorem shows_repeated {n : Nat} {c : Char} (hn : n ≠ 0) (hc : Text.isBlank c = false) :
    Validation.Shows (repeated n c) := by
  refine ⟨c, ?_, hc⟩
  rw [repeated, String.toList_ofList]
  exact List.mem_replicate.mpr ⟨hn, rfl⟩

theorem size_repeated (n : Nat) (c : Char) : (repeated n c).utf8ByteSize = n * c.utf8Size := by
  rw [← Utf8.length_encode, repeated, String.toList_ofList]
  induction n with
  | zero => exact (Nat.zero_mul _).symm
  | succ n ih =>
    have hcons : Utf8.encode (List.replicate (n + 1) c) =
        String.utf8EncodeChar c ++ Utf8.encode (List.replicate n c) := rfl
    rw [hcons, List.length_append, ih, String.length_utf8EncodeChar, Nat.succ_mul, Nat.add_comm]

/-- A group may be called Lobby, but not by 256 letters. -/
theorem lobby_not_too_long :
    let c := Setup.plain.context .epoch
    let ask name :=
      (first .refused).serve c (byRoot c (posting "/api/group" (GroupRequest.mk name)))
    ¬(ask "Lobby").Tells tooLong ∧ (ask (repeated 256 'a')).Tells tooLong := by
  intro c ask
  constructor
  · obtain ⟨-, -, hshort, hserve⟩ := names_limited_unless_miscounted "Lobby"
    intro h
    have hlong := ((hserve _ _ _ _ _ (asked_createGroup (by decide)) rfl).mp h).2
    exact hlong.elim (by decide) (hshort (.inr (by decide)))
  · obtain ⟨-, -, -, hserve⟩ := names_limited_unless_miscounted (repeated 256 'a')
    have hlength := length_repeated 256 'a'
    have hsmall : (repeated 256 'a').length ≤ 1000 := by omega
    have hlong : 255 < (repeated 256 'a').length := by omega
    exact (hserve _ _ _ _ _ (asked_createGroup hsmall) rfl).mpr
      ⟨shows_repeated (by decide) (by decide), .inl hlong⟩

/-- A name of 128 characters is short enough and is refused as too long. -/
theorem accented_refused_as_too_long :
    let c := Setup.plain.context .epoch
    let name := repeated 128 'é'
    name.length = 128 ∧ Validation.Shows name ∧
      Validation.name "name" name = .error ⟨"name", Validation.longField⟩ ∧
      ((first .refused).serve c
        (byRoot c (posting "/api/group" (GroupRequest.mk name)))).Tells tooLong := by
  intro c name
  have hlength : name.length = 128 := length_repeated 128 'é'
  have hbytes : 255 < name.utf8ByteSize := by
    rw [size_repeated]
    decide
  have hshows : Validation.Shows name := shows_repeated (by decide) (by decide)
  have hlong := Validation.size_lt_iff.mp hbytes
  exact ⟨hlength, hshows, Validation.name_eq_tooLong_iff.mpr ⟨hshows, hlong⟩,
    (serve_tells_iff (asked_createGroup (by omega)) rfl).mpr ⟨hshows, hlong⟩⟩

end State

end Service
end BotFleet
