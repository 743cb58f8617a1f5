import BotFleet.Json.Message

/-
Topics and the changes that concern them.

A topic is a listing that clients watch, named by the path of that listing.
`Change.topics` is the only place that decides which listings a change makes
stale.
-/

namespace BotFleet

inductive Topic where
  | users
  | groups
  | instances
deriving DecidableEq, Repr

namespace Topic

def all : List Topic := [.users, .groups, .instances]

/-- The path of the listing, which is also the topic's name on the socket. -/
def path : Topic → String
  | .users => "/api/user"
  | .groups => "/api/group"
  | .instances => "/api/instance"

def ofPath? (p : String) : Option Topic := all.find? fun t => t.path == p

end Topic

inductive Change where
  /-- A user was created, altered, deleted or had authorities changed. -/
  | users
  /-- A group was created, renamed, deleted or had authorities changed. -/
  | groups
  /-- A user joined or left a group. -/
  | groupMembers
  /-- An instance was created, altered or deleted. -/
  | instances
  /-- An instance was started or stopped. -/
  | instanceState
deriving DecidableEq, Repr

namespace Change

def all : List Change := [.users, .groups, .groupMembers, .instances, .instanceState]

def name : Change → String
  | .users => "users"
  | .groups => "groups"
  | .groupMembers => "group_members"
  | .instances => "instances"
  | .instanceState => "instance_state"

/-- The listings that are stale after a change. -/
def topics : Change → List Topic
  | .users => [.users]
  | .groups | .groupMembers => [.groups]
  | .instances | .instanceState => [.instances]

def ofName : { n : String // n ∈ all.map name } → Change
  | ⟨n, _⟩ => (all.find? fun c => c.name == n).getD .users

theorem name_mem (c : Change) : c.name ∈ all.map name := by cases c <;> decide

theorem ofName_name (c : Change) : ofName ⟨c.name, name_mem c⟩ = c := by cases c <;> decide

instance : Json.Message Change where
  shape := .choice (all.map name)
  toValue c := ⟨c.name, name_mem c⟩
  ofValue := ofName

end Change
end BotFleet
