import BotFleet.Proofs.Config.Url
import BotFleet.Proofs.Service.Run
import BotFleet.Proofs.Text.Order

/-
Whether answers can name the origin, and when that comes out.

A configuration is accepted with any URL for the origin, whatever characters follow the
scheme.  A header takes no control characters but the tab.  So a start may get as far as the
origin and fail there, and then the first account has been stored and the daemon has been
asked to start instances.

The theorem this file exists for is `origin_served`: a start that gets as far fails exactly
for an origin that no header takes, and what it leaves behind is the same in both cases.
-/

namespace BotFleet

/-! ## The bytes of a header -/

namespace Utf8

variable {c : Char} {b : UInt8}

theorem encodeChar_of_le (hc : c.toNat ≤ 0x7F) :
    String.utf8EncodeChar c = [UInt8.ofNat c.toNat] := by
  rw [encodeChar_eq, lead, spare, if_pos hc]
  simp only [trail, mark, Nat.pow_zero, Nat.div_one, Nat.add_zero]

theorem le_of_mem_trail {n k : Nat} (hb : b ∈ trail n k) : 0x80 ≤ b.toNat := by
  induction k with
  | zero => cases hb
  | succ k ih =>
    rcases List.mem_cons.mp hb with rfl | hb
    · rw [UInt8.toNat_ofNat']
      omega
    · exact ih hb

/-- Beyond seven bits, no byte of a character is one of seven bits. -/
theorem le_of_mem_encodeChar (hc : 0x7F < c.toNat) (hb : b ∈ String.utf8EncodeChar c) :
    0x80 ≤ b.toNat := by
  rw [encodeChar_eq] at hb
  rcases List.mem_cons.mp hb with rfl | hb
  · have hrange := codePoint_range c
    have hlow : 0x80 ≤ lead c.toNat := by
      unfold lead spare
      split_ifs <;> simp only [mark, Nat.reducePow] <;> omega
    have hhigh : lead c.toNat < 256 := lead_lt_256 (by omega)
    rw [UInt8.toNat_ofNat']
    omega
  · exact le_of_mem_trail hb

end Utf8

namespace Http
namespace Header

/-- A byte that may stand in the value of a header: a tab, or no control character. -/
def Takes (b : UInt8) : Prop := b.toNat = 9 ∨ 32 ≤ b.toNat ∧ b.toNat ≠ 127

instance (b : UInt8) : Decidable (Takes b) := inferInstanceAs (Decidable (_ ∨ _))

theorem takes_encodeChar_iff (c : Char) :
    (∀ b ∈ String.utf8EncodeChar c, Takes b) ↔
      (c == '\t' || (' ' ≤ c && c != '\x7f')) = true := by
  have hle : ' ' ≤ c ↔ 32 ≤ c.toNat := UInt32.le_iff_toNat_le
  have htab : c = '\t' ↔ c.toNat = 9 := Char.toNat_inj.symm
  have hdelete : c = '\x7f' ↔ c.toNat = 127 := Char.toNat_inj.symm
  rw [Bool.or_eq_true, Bool.and_eq_true, beq_iff_eq, bne_iff_ne, decide_eq_true_iff, hle, htab,
    ne_eq, hdelete]
  rcases Nat.lt_or_ge 0x7F c.toNat with hc | hc
  · refine iff_of_true (fun b hb => ?_) (by omega)
    have hle := Utf8.le_of_mem_encodeChar hc hb
    exact .inr (by omega)
  · have hbyte : (UInt8.ofNat c.toNat).toNat = c.toNat := by
      rw [UInt8.toNat_ofNat']
      omega
    rw [Utf8.encodeChar_of_le hc, List.forall_mem_singleton, Takes, hbyte]

/-- No byte of the text keeps a header from taking it. -/
def Sendable (s : List Char) : Prop := ∀ b ∈ Utf8.encode s, Takes b

theorem isValue_iff {text : String} : isValue text = true ↔ Sendable text.toList := by
  rw [isValue, List.all_eq_true, Sendable, Utf8.encode]
  simp only [← takes_encodeChar_iff, List.mem_flatMap]
  constructor
  · rintro h b ⟨c, hc, hb⟩
    exact h c hc b hb
  · intro h c hc b hb
    exact h b ⟨c, hc, hb⟩

theorem sendable_append {s t : List Char} : Sendable (s ++ t) ↔ Sendable s ∧ Sendable t := by
  rw [Sendable, Utf8.encode_append]
  exact List.forall_mem_append

theorem sendable_of_mem_schemes {scheme : List Char} (h : scheme ∈ Config.schemes) :
    Sendable scheme := by
  have hplain : isValue "http://" = true := by decide
  have hsecure : isValue "https://" = true := by decide
  rcases List.mem_cons.mp h with rfl | h
  · exact isValue_iff.mp hplain
  · cases List.mem_singleton.mp h
    exact isValue_iff.mp hsecure

end Header
end Http

namespace Service
namespace State

open Http (Header)

variable {d : Setup} {m : Moment} {draws : List Nat}
  {found : Store.Location → Except Store.Fault Store} {password : Option String} {store : Store}

/-! ## The end of a start -/

/-- The store that is prepared has the first account. -/
theorem has_root_of_prepare
    (h : Startup.prepare (d.context m) draws found = .ok (password, store)) :
    Table.has Bootstrap.rootId store.users = true := by
  obtain ⟨-, opened, -, hroot⟩ := ensureRoot_of_prepare h
  rcases Bootstrap.ensureRoot_eq_ok hroot with ⟨u, hu, -, rfl⟩ | ⟨-, -, hash, u, -, hcall⟩
  · exact Option.isSome_iff_exists.mpr ⟨u, hu⟩
  · obtain ⟨-, -, -, rfl, rfl⟩ := Store.addUser_eq_ok_iff.mp hcall
    exact Table.has_insert.mpr (.inl rfl)

theorem checkOrigin_of_sendable {origin : String} (h : Header.Sendable origin.toList) :
    Startup.checkOrigin origin = .ok () :=
  if_pos (Header.isValue_iff.mpr h)

theorem checkOrigin_of_not_sendable {origin : String} (h : ¬Header.Sendable origin.toList) :
    Startup.checkOrigin origin =
      .error (.config (.invalidValue "cors_origin" "failed to parse header value")) :=
  if_neg fun hvalue => h (Header.isValue_iff.mp hvalue)

/-- For a configuration that is accepted, only what follows the scheme of the origin decides
whether a header takes it.  If it does, a start that has prepared the store succeeds.  If not,
the start fails then and there, with the first account stored and the daemon asked to start
instances. -/
theorem origin_served (hvalid : Config.validate d.config = .ok ()) :
    let origin := d.config.corsOrigin
    (∃ scheme ∈ Config.schemes, ∃ rest, rest ≠ [] ∧ origin.toList = scheme ++ rest ∧
        (Header.Sendable origin.toList ↔ Header.Sendable rest)) ∧
      (Startup.checkOrigin origin = .ok () ↔ Header.Sendable origin.toList) ∧
      ∀ (m : Moment) (draws : List Nat) (found : Store.Location → Except Store.Fault Store)
        (link : Daemon.Link) (password : Option String) (store : Store),
        Startup.prepare (d.context m) draws found = .ok (password, store) →
          let startup := Startup.run (d.context m) draws found link
          Table.has Bootstrap.rootId store.users = true ∧
            startup.link = (startedWith d link store).link ∧
            (Header.Sendable origin.toList →
              startup.state = .ok ⟨⟨store, startedWith d link store⟩, .empty⟩) ∧
            (¬Header.Sendable origin.toList →
              startup.state =
                .error (.config (.invalidValue "cors_origin" "failed to parse header value"))) := by
  intro origin
  obtain ⟨scheme, hscheme, rest, hrest, horigin⟩ :=
    Config.isHttpUrl_iff.mp (Config.urls_of_validate hvalid).2
  refine ⟨⟨scheme, hscheme, rest, hrest, horigin, ?_⟩, ⟨fun hok => ?_, checkOrigin_of_sendable⟩, ?_⟩
  · show Header.Sendable d.config.corsOrigin.toList ↔ _
    rw [horigin, Header.sendable_append]
    exact and_iff_right (Header.sendable_of_mem_schemes hscheme)
  · by_contra hnot
    rw [checkOrigin_of_not_sendable hnot] at hok
    cases hok
  · intro m draws found link password store hprepare startup
    have hstate := state_of_prepare link hprepare
    refine ⟨has_root_of_prepare hprepare, link_of_prepare link hprepare, fun hsendable => ?_,
      fun hnot => ?_⟩
    · exact hstate.trans (by rw [checkOrigin_of_sendable hsendable]; rfl)
    · exact hstate.trans (by rw [checkOrigin_of_not_sendable hnot]; rfl)

/-! ## An origin with a line break -/

/-- The setup with another origin than the one that is built in. -/
def naming (origin : String) : Setup :=
  { Setup.plain with config := { Config.default with corsOrigin := origin } }

theorem prepare_naming (origin : String) :
    Startup.prepare ((naming origin).context .epoch) [] (fun _ => .ok .fresh) =
      .ok (some "", firstStore) := by
  have hlocate : Startup.locate ((naming origin).context .epoch).config = _ := locate_plain
  rw [Startup.prepare, hlocate]
  rfl

/-- With the origin of the pages of another machine a start succeeds, and with a line break in
the origin it fails when the first account has been stored. -/
theorem naming_served :
    Config.validate (naming "https://fleet.example").config = .ok () ∧
      (Startup.run ((naming "https://fleet.example").context .epoch) [] (fun _ => .ok .fresh)
          ⟨"", [], .refused, []⟩).state =
        .ok ⟨⟨firstStore, startedWith (naming "https://fleet.example") ⟨"", [], .refused, []⟩
          firstStore⟩, .empty⟩ ∧
      Config.validate (naming "http://bad\norigin").config = .ok () ∧
      (Startup.run ((naming "http://bad\norigin").context .epoch) [] (fun _ => .ok .fresh)
          ⟨"", [], .refused, []⟩).state =
        .error (.config (.invalidValue "cors_origin" "failed to parse header value")) := by
  have hgood : Config.validate (naming "https://fleet.example").config = .ok () := by rfl
  have hbad : Config.validate (naming "http://bad\norigin").config = .ok () := by rfl
  obtain ⟨-, -, hserves⟩ := origin_served hgood
  obtain ⟨-, -, hfails⟩ := origin_served hbad
  obtain ⟨-, -, hok, -⟩ := hserves .epoch [] _ ⟨"", [], .refused, []⟩ _ _ (prepare_naming _)
  obtain ⟨-, -, -, herror⟩ := hfails .epoch [] _ ⟨"", [], .refused, []⟩ _ _ (prepare_naming _)
  refine ⟨hgood, hok ?_, hbad, herror ?_⟩
  · exact Header.isValue_iff.mp (by decide)
  · exact fun hsendable => absurd (Header.isValue_iff.mpr hsendable) (by decide)

/-- Not every origin that is accepted can be served. -/
theorem not_always_served :
    ¬∀ (d : Setup) (m : Moment) (draws : List Nat)
        (found : Store.Location → Except Store.Fault Store) (link : Daemon.Link)
        (password : Option String) (store : Store), Config.validate d.config = .ok () →
      Startup.prepare (d.context m) draws found = .ok (password, store) →
        Startup.checkOrigin d.config.corsOrigin = .ok () ∧
          ∃ s, (Startup.run (d.context m) draws found link).state = .ok s := by
  intro h
  obtain ⟨horigin, -⟩ := h (naming "http://bad\norigin") .epoch [] (fun _ => .ok .fresh)
    ⟨"", [], .refused, []⟩ _ _ (by rfl) (prepare_naming _)
  cases horigin

end State
end Service
end BotFleet
