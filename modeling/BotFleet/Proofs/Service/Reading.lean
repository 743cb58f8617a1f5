import BotFleet.Proofs.Http.Percent
import BotFleet.Proofs.Json.RoundTrip
import BotFleet.Proofs.Service.Run

/-
What well-formed requests ask for.

An identifier is read back from its shortest form and a message from its own
text, so for every operation there is a request that is read into it.
-/

namespace BotFleet
namespace Service

open Http (Request)
open Json (Message)

/-! ## Parameters -/

theorem parameter_ofInt (name : String) (n : Int) :
    parameter name (Numeral.ofInt n) = .ok (Numeral.ofInt n) := by
  rw [parameter, Http.Percent.decode?_ofInt]

theorem identifier_ofInt (fault : String → Http.Rejection) (id : Id) :
    identifier fault (Numeral.ofInt id.val) = .ok id := by
  rw [identifier, Numeral.ofInt, String.toList_ofList, Numeral.read?_whole]

theorem oneId_ofInt (id : Id) : oneId (Numeral.ofInt id.val) = .ok id := by
  rw [oneId, parameter_ofInt]
  exact identifier_ofInt _ id

theorem twoIds_ofInt (name : String) (id id' : Id) :
    twoIds (Numeral.ofInt id.val) name (Numeral.ofInt id'.val) = .ok (id, id') := by
  rw [twoIds, parameter_ofInt, parameter_ofInt]
  simp only [bind, Except.bind, identifier_ofInt]
  rfl

/-! ## Bodies -/

/-- A request without header fields and without a body. -/
def bare (verb : Http.Verb) (path : String) : Request := ⟨verb, ⟨path, none⟩, [], "", false⟩

/-- A request whose body is a message. -/
def posting {α : Type} [Message α] (path : String) (a : α) : Request :=
  ⟨.post, ⟨path, none⟩, [⟨"content-type", "application/json"⟩], Message.write a, false⟩

theorem bodyOf_posting {α : Type} [Message α] {path : String} {a : α}
    (hfits : (Message.shape α).Fits (Message.toValue a))
    (hsize : Utf8.size (Message.write a) ≤ longestBody) :
    bodyOf α (posting path a) = .ok (Message.ofValue (Message.toValue a)) := by
  have hkind : ((posting path a).text? "content-type").any Http.Media.isJson = true := by
    show Http.Media.isJson "application/json" = true
    rfl
  have hbody : (Message.read (posting path a).body : Except Json.Fault α) =
      .ok (Message.ofValue (Message.toValue a)) :=
    Message.readSource_write hfits
  rw [bodyOf, hkind, hbody]
  exact if_neg (Nat.not_lt.mpr hsize)

/-! ## Operations -/

namespace State

variable {resource : Resource} {path : String}

theorem operation?_eq_some {r : Request} {reader : Reader} {op : Operation}
    (hverb : r.verb ≠ .options) (hroute : Route.ofPath? r.path = some (.resource resource))
    (hreader : resource.reader? r.verb = some reader) (hop : reader r = .ok op) :
    operation? r = some op := by
  rw [operation?, if_neg hverb, hroute]
  dsimp only
  rw [hreader, Option.bind_some, hop]
  rfl

/-- What a request is read into, it is read into by the reader of its resource. -/
theorem exists_reader {r : Request} {op : Operation} (h : operation? r = some op) :
    r.verb ≠ .options ∧ ∃ resource reader,
      Route.ofPath? r.path = some (.resource resource) ∧
        resource.reader? r.verb = some reader ∧ reader r = .ok op := by
  rw [operation?] at h
  split at h
  · cases h
  rename_i hverb
  split at h
  · rename_i resource hroute
    obtain ⟨reader, hreader, hop⟩ := Option.bind_eq_some_iff.mp h
    refine ⟨hverb, resource, reader, hroute, hreader, ?_⟩
    cases hread : reader r with
    | error rejection =>
      rw [hread] at hop
      cases hop
    | ok found =>
      rw [hread] at hop
      cases hop
      rfl
  · cases h

theorem operation?_withId {verb : Http.Verb} {id : Id} {operation : Id → Operation}
    (hverb : verb ≠ .options) (hroute : Route.ofPath? path = some (.resource resource))
    (hreader : resource.reader? verb = some (.withId (Numeral.ofInt id.val) operation)) :
    operation? (bare verb path) = some (operation id) := by
  refine operation?_eq_some hverb hroute hreader ?_
  rw [Reader.withId, oneId_ofInt]
  rfl

theorem operation?_withIds {verb : Http.Verb} {name : String} {id id' : Id}
    {operation : Id → Id → Operation} (hverb : verb ≠ .options)
    (hroute : Route.ofPath? path = some (.resource resource))
    (hreader : resource.reader? verb =
      some (.withIds (Numeral.ofInt id.val) name (Numeral.ofInt id'.val) operation)) :
    operation? (bare verb path) = some (operation id id') := by
  refine operation?_eq_some hverb hroute hreader ?_
  rw [Reader.withIds, twoIds_ofInt]
  rfl

theorem operation?_withBody {α : Type} [Message α] {a : α} {operation : α → Operation}
    (hroute : Route.ofPath? path = some (.resource resource))
    (hreader : resource.reader? .post = some (.withBody operation))
    (hfits : (Message.shape α).Fits (Message.toValue a))
    (hsize : Utf8.size (Message.write a) ≤ longestBody) :
    operation? (posting path a) = some (operation (Message.ofValue (Message.toValue a))) := by
  refine operation?_eq_some (by simp [posting]) hroute hreader ?_
  rw [Reader.withBody, bodyOf_posting hfits hsize]
  rfl

end State

end Service
end BotFleet
