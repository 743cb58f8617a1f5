import BotFleet.Proofs.Service.Reading

/-
Which listing a request is about.

The path of a listing is where all paths of what is listed begin, so the listing that a
request is about can be read off its path.  `covers_iff` shows that this is the one that
its route belongs to, and `topic?_of_operation?` that an operation alters no other one.
-/

namespace BotFleet

/-- The path is that of the listing or goes on from it. -/
def Topic.Covers (t : Topic) (path : String) : Prop := t.path.toList <+: path.toList

namespace Service

open Http (Request Verb)
open Json (Message)

/-! ## Paths -/

/-- A path is made of its parts and the slashes between them. -/
theorem toList_of_segments {path : String} {parts : List String} (h : segments path = parts) :
    path.toList = ['/'].intercalate (parts.map String.toList) := by
  have hparts : parts.map String.toList = path.toList.splitOn '/' := by
    rw [← h, segments, List.map_map]
    refine (List.map_congr_left fun s _ => ?_).trans (List.map_id _)
    exact String.toList_ofList
  rw [hparts, List.intercalate_splitOn]

namespace Resource

/-- The listing that a resource is or is in. -/
def topic? : Resource → Option Topic
  | users | user _ | userAuthority _ _ => some .users
  | groups | group _ | groupMember _ _ | groupAuthority _ _ => some .groups
  | instances | inst _ | instanceStart _ | instanceStop _ => some .instances
  | me | authorities => none

/-- The parts of the path that names a resource. -/
def parts : Resource → List String
  | me => ["", "api", "auth", "me"]
  | users => ["", "api", "user"]
  | user id => ["", "api", "user", id]
  | userAuthority id authority => ["", "api", "user", id, "authority", authority]
  | groups => ["", "api", "group"]
  | group id => ["", "api", "group", id]
  | groupMember id member => ["", "api", "group", id, "member", member]
  | groupAuthority id authority => ["", "api", "group", id, "authority", authority]
  | instances => ["", "api", "instance"]
  | inst id => ["", "api", "instance", id]
  | instanceStart id => ["", "api", "instance", id, "start"]
  | instanceStop id => ["", "api", "instance", id, "stop"]
  | authorities => ["", "api", "authority"]

theorem eq_parts_of_ofSegments? {names : List String} {resource : Resource}
    (h : ofSegments? names = some resource) : names = resource.parts := by
  unfold ofSegments? at h
  split at h <;> try split at h
  all_goals cases h
  all_goals rfl

end Resource

namespace Route

def topic? : Route → Option Topic
  | login | socket => none
  | resource r => r.topic?

def parts : Route → List String
  | login => ["", "api", "auth", "login"]
  | socket => ["", "socket"]
  | resource r => r.parts

theorem segments_of_ofPath? {path : String} {route : Route} (h : ofPath? path = some route) :
    segments path = route.parts := by
  rw [ofPath?, ofSegments?.eq_def] at h
  split at h
  · rename_i hsegments
    cases h
    exact hsegments
  · rename_i hsegments
    cases h
    exact hsegments
  · obtain ⟨found, hfound, rfl⟩ := Option.map_eq_some_iff.mp h
    exact Resource.eq_parts_of_ofSegments? hfound

/-- The listing whose path a known path begins with is the one that its route belongs to. -/
theorem covers_iff {path : String} {route : Route} {t : Topic} (h : ofPath? path = some route) :
    t.Covers path ↔ route.topic? = some t := by
  rw [Topic.Covers, toList_of_segments (segments_of_ofPath? h)]
  cases route with
  | login | socket =>
    cases t <;> simp [parts, topic?, Topic.path, List.intercalate, List.cons_prefix_cons]
  | resource resource =>
    cases resource <;> cases t <;>
      simp [parts, topic?, Resource.parts, Resource.topic?, Topic.path, List.intercalate,
        List.cons_prefix_cons]

end Route

/-! ## Operations -/

/-- The listing that an operation alters what it shows of. -/
def Operation.topic? : Operation → Option Topic
  | createUser _ | editUser _ _ | deleteUser _ | grantUser _ _ | revokeUser _ _ => some .users
  | createGroup _ | renameGroup _ _ | deleteGroup _ | addMember _ _ | removeMember _ _
  | grantGroup _ _ | revokeGroup _ _ => some .groups
  | createInstance _ | editInstance _ _ | deleteInstance _ | startInstance _
  | stopInstance _ => some .instances
  | showMe | listUsers | showUser _ | listGroups | showGroup _ | listInstances
  | showInstance _ | listAuthorities => none

/-- The methods that ask for something to be altered. -/
def altering : List Verb := [.post, .put, .delete]

namespace Reader

/-- Whatever a request is read into alters that listing and no other, or alters none. -/
def Alters (topic : Option Topic) (reader : Reader) : Prop :=
  ∀ r op, reader r = .ok op → op.topic? = topic

variable {topic : Option Topic}

theorem alters_plain {op : Operation} (h : op.topic? = topic) : (plain op).Alters topic := by
  intro r _ hop
  cases hop
  exact h

theorem alters_withId {raw : String} {operation : Id → Operation}
    (h : ∀ id, (operation id).topic? = topic) : (withId raw operation).Alters topic := by
  intro r op hop
  obtain ⟨id, -, rfl⟩ := Json.map_eq_ok hop
  exact h id

theorem alters_withIds {first name second : String} {operation : Id → Id → Operation}
    (h : ∀ a b, (operation a b).topic? = topic) :
    (withIds first name second operation).Alters topic := by
  intro r op hop
  obtain ⟨ids, -, rfl⟩ := Json.map_eq_ok hop
  exact h ids.1 ids.2

theorem alters_withBody {α : Type} [Message α] {operation : α → Operation}
    (h : ∀ a, (operation a).topic? = topic) : (withBody operation).Alters topic := by
  intro r op hop
  obtain ⟨a, -, rfl⟩ := Json.map_eq_ok hop
  exact h a

theorem alters_withIdAndBody {α : Type} [Message α] {raw : String} {operation : Id → α → Operation}
    (h : ∀ id a, (operation id a).topic? = topic) :
    (withIdAndBody raw operation).Alters topic := by
  intro r op hop
  unfold withIdAndBody at hop
  cases hid : oneId raw with
  | error rejection =>
    rw [hid] at hop
    cases hop
  | ok id =>
    cases hbody : bodyOf α r with
    | error rejection =>
      rw [hid, hbody] at hop
      cases hop
    | ok a =>
      rw [hid, hbody] at hop
      cases hop
      exact h id a

end Reader

theorem Resource.alters_readerOf? {resource : Resource} {verb : Verb} {reader : Reader}
    (h : resource.readerOf? verb = some reader) :
    reader.Alters (if verb ∈ altering then resource.topic? else none) := by
  unfold readerOf? at h
  split at h <;> cases h <;>
    first
    | exact Reader.alters_plain rfl
    | exact Reader.alters_withId fun _ => rfl
    | exact Reader.alters_withIds fun _ _ => rfl
    | exact Reader.alters_withBody fun _ => rfl
    | exact Reader.alters_withIdAndBody fun _ _ => rfl

theorem Resource.alters_reader? {resource : Resource} {verb : Verb} {reader : Reader}
    (h : resource.reader? verb = some reader) :
    reader.Alters (if verb ∈ altering then resource.topic? else none) := by
  unfold reader? at h
  split at h
  · -- HEAD is read as GET is, and neither alters anything.
    have halters := alters_readerOf? h
    rw [if_neg (by decide)] at halters ⊢
    exact halters
  · exact alters_readerOf? h

namespace State

variable {r : Request} {op : Operation} {t : Topic}

/-- An operation alters the listing that its path is about, if it was asked for by a method
that alters something. -/
theorem topic?_of_operation? (h : operation? r = some op) :
    op.topic? = some t ↔ r.verb ∈ altering ∧ t.Covers r.path := by
  obtain ⟨-, resource, reader, hroute, hreader, hop⟩ := exists_reader h
  rw [Route.covers_iff hroute, Resource.alters_reader? hreader r op hop, Route.topic?]
  by_cases hverb : r.verb ∈ altering
  · rw [if_pos hverb]
    exact (and_iff_right hverb).symm
  · rw [if_neg hverb]
    simp [hverb]

end State
end Service
end BotFleet
