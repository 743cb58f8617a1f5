import BotFleet.Account
import BotFleet.Config.Basic
import BotFleet.Daemon.Request
import BotFleet.Group
import BotFleet.Proofs.Json.RoundTrip
import BotFleet.Token
import BotFleet.Topic

/-
Messages that come back as they were sent.

Most shapes describe values of which each can be told from its text, whatever the texts
and the numbers in it are: the bounds of their numbers fit 64 bits, what may be absent is
never itself written as null, and no two fields of a record have one name.  This can be
computed from the shape.  A double is the exception: the digits that are written tell it from
every other one, but reading may round more than once.

The theorem this file exists for is `messages_round_trip`.
-/

namespace BotFleet
namespace Json

/-! ## Shapes whose values can be told from their texts -/

/-- Whether a value of the shape may be written as null. -/
def Shape.admitsNull : Shape → Bool
  | .checked _ => true
  | .optional _ => true
  | _ => false

mutual

/-- Whether every value of the shape can be told from its text. -/
def Shape.isPlain : Shape → Bool
  | .flag => true
  | .whole lo hi => decide (-9223372036854775808 ≤ lo) && decide (hi < 18446744073709551616)
  | .real => false
  | .text => true
  | .instant => false
  | .checked _ => false
  | .optional s => s.isPlain && !s.admitsNull
  | .list s => s.isPlain
  | .record fs => decide fs.names.Nodup && fs.arePlain
  | .choice _ => true
  | .tagged _ s => s.isPlain

def Fields.arePlain : Fields → Bool
  | .nil => true
  | .others _ => true
  | .cons _ _ s rest => s.isPlain && rest.arePlain

end

theorem Shape.toJson_ne_null {s : Shape} (h : s.admitsNull = false) (v : s.Value) :
    s.toJson v ≠ .null := by
  cases s with
  | checked test => cases h
  | optional s => cases h
  | _ => exact nofun

theorem fitsWord_of_bounds {lo hi : Int} (n : Ranged lo hi) (hlo : -9223372036854775808 ≤ lo)
    (hhi : hi < 18446744073709551616) : FitsWord n.val := by
  have h := n.property
  constructor <;> omega

mutual

theorem Shape.fits_of_isPlain : (s : Shape) → s.isPlain = true → (v : s.Value) → s.Fits v
  | .flag, _, _ => trivial
  | .whole _ _, h, n => by
    obtain ⟨hlo, hhi⟩ := Bool.and_eq_true_iff.mp h
    exact fitsWord_of_bounds n (of_decide_eq_true hlo) (of_decide_eq_true hhi)
  | .text, _, _ => trivial
  | .optional _, _, none => trivial
  | .optional s, h, some v => by
    obtain ⟨hplain, hnull⟩ := Bool.and_eq_true_iff.mp h
    exact ⟨Shape.fits_of_isPlain s hplain v, Shape.toJson_ne_null (by simpa using hnull) v⟩
  | .list s, h, _ => fun v _ => Shape.fits_of_isPlain s h v
  | .record fs, h, vs => by
    obtain ⟨hnames, hplain⟩ := Bool.and_eq_true_iff.mp h
    exact ⟨of_decide_eq_true hnames, Fields.fit_of_arePlain fs hplain vs⟩
  | .choice _, _, _ => trivial
  | .tagged _ s, h, v => Shape.fits_of_isPlain s h v

theorem Fields.fit_of_arePlain : (fs : Fields) → fs.arePlain = true → (vs : fs.Values) → fs.Fit vs
  | .nil, _, _ => trivial
  | .others _, _, _ => trivial
  | .cons _ .refused s rest, h, (v, vs) => by
    obtain ⟨hfirst, hrest⟩ := Bool.and_eq_true_iff.mp h
    exact ⟨Shape.fits_of_isPlain s hfirst v, Fields.fit_of_arePlain rest hrest vs⟩
  | .cons _ .noted _ rest, h, (none, vs) =>
    Fields.fit_of_arePlain rest (Bool.and_eq_true_iff.mp h).2 vs
  | .cons _ .noted s rest, h, (some v, vs) => by
    obtain ⟨hfirst, hrest⟩ := Bool.and_eq_true_iff.mp h
    exact ⟨Shape.fits_of_isPlain s hfirst v, Fields.fit_of_arePlain rest hrest vs⟩

end

/-! ## Messages -/

namespace Message

variable {α : Type} [Message α]

/-- Every message of the type is read back from its text as it was. -/
def RoundTrips (α : Type) [Message α] : Prop := ∀ a : α, read (write a) = .ok a

theorem read_write {a : α} (h : (shape α).Fits (toValue a)) :
    (read (write a) : Except Fault α) = .ok (ofValue (toValue a)) :=
  readSource_write h

theorem read_write_of_isPlain (h : (shape α).isPlain = true) (a : α) :
    (read (write a) : Except Fault α) = .ok (ofValue (toValue a)) :=
  read_write (Shape.fits_of_isPlain (shape α) h (toValue a))

/-- What is not lost on the way to a value of a plain shape is not lost on the way to the
text. -/
theorem roundTrips_of_isPlain (h : (shape α).isPlain = true)
    (hvalue : ∀ a : α, ofValue (toValue a) = a) : RoundTrips α := by
  intro a
  rw [read_write_of_isPlain h, hvalue]

end Message
end Json

open Json (Message)

/-- A start request is read back from its text if the volume is. -/
theorem Daemon.LoadRequest.read_write {r : LoadRequest} (h : r.volume.IsShort) :
    Message.read (Message.write r) = .ok r := by
  have hconnection := Connection.shape.fits_of_isPlain rfl r.connection.toValue
  have hid := Json.Shape.id.fits_of_isPlain rfl r.id
  exact Message.read_write ⟨by decide, hid, hconnection, Json.reads_real h, trivial⟩

/-- Logins, profiles, answers to logins, authorities, groups, requests about accounts and
instances, claims, configurations and changes are read back from their texts as they were, and
so is a start request with a short volume.  An instance is read back without its password, and
the request that starts it with it. -/
theorem messages_round_trip :
    Message.RoundTrips Login ∧ Message.RoundTrips Profile ∧ Message.RoundTrips Welcome ∧
      Message.RoundTrips Authority ∧ Message.RoundTrips Group ∧ Message.RoundTrips GroupView ∧
      Message.RoundTrips NewUser ∧ Message.RoundTrips UserEdit ∧ Message.RoundTrips Settings ∧
      Message.RoundTrips Token.Claims ∧ Message.RoundTrips Config ∧ Message.RoundTrips Change ∧
      (∀ i : Instance, Message.read (Message.write i) =
        .ok { i with settings := { i.settings with password := none } }) ∧
      (∀ r : Daemon.LoadRequest, r.volume.IsShort → Message.read (Message.write r) = .ok r) ∧
      ∀ i : Instance,
        Message.read (Message.write (Daemon.LoadRequest.ofInstance i Daemon.initialVolume)) =
          .ok (Daemon.LoadRequest.ofInstance i Daemon.initialVolume) := by
  have hstart : Daemon.initialVolume.IsShort := ⟨5, 2, by decide, by decide, rfl⟩
  exact ⟨Message.roundTrips_of_isPlain rfl fun _ => rfl,
    Message.roundTrips_of_isPlain rfl fun _ => rfl,
    Message.roundTrips_of_isPlain rfl fun _ => rfl,
    Message.roundTrips_of_isPlain rfl fun _ => rfl,
    Message.roundTrips_of_isPlain rfl fun _ => rfl,
    Message.roundTrips_of_isPlain rfl fun _ => rfl,
    Message.roundTrips_of_isPlain rfl fun _ => rfl,
    Message.roundTrips_of_isPlain rfl fun _ => rfl,
    Message.roundTrips_of_isPlain rfl fun _ => rfl,
    Message.roundTrips_of_isPlain rfl fun _ => rfl,
    Message.roundTrips_of_isPlain rfl fun _ => rfl,
    Message.roundTrips_of_isPlain rfl Change.ofName_name,
    Message.read_write_of_isPlain rfl,
    fun _ => Daemon.LoadRequest.read_write,
    fun _ => Daemon.LoadRequest.read_write hstart⟩

/-- A start request whose name needs escapes, with the least identifier and channel. -/
theorem quoted_name_round_trips :
    let x : Double := ⟨true, Double.nearest (12345 * Double.one) (Nat.pow 10 3),
      Double.isExact_nearest _ _, by decide +kernel⟩
    let r : Daemon.LoadRequest :=
      { id := ⟨-9223372036854775808, by decide⟩
        connection :=
          { host := "voice.example", port := some ⟨65535, by decide⟩, identity := "",
            channel := some ⟨-2147483648, by decide⟩, name := "\"DJ\" \\ \n é", password := none }
        volume := x }
    x.IsShort ∧ Message.read (Message.write r) = .ok r := by
  intro x r
  obtain ⟨-, -, -, -, -, -, -, -, -, -, -, -, -, hload, -⟩ := messages_round_trip
  have hshort : x.IsShort := ⟨12345, 3, by decide, by decide, rfl⟩
  exact ⟨hshort, hload r hshort⟩

end BotFleet
