import Mathlib.Order.BooleanAlgebra.Set
import Mathlib.Logic.Function.Basic
import BotFleet.Registry

/-
The registry as a map.

`standing?` forgets the order in which sessions and topics are kept: a session has a set of
topics and a place where its outbox stands, or it is not registered.  Each call is an
update of this map at the session that makes it, and what it answers says whether the
map is another one afterwards.  Nothing above the calls looks at the lists again.
-/

namespace BotFleet
namespace Registry

/-- The topics of a session and the place of its outbox, if the session is registered. -/
def standing? (r : Registry) (id : SessionId) : Option (Set String × Nat) :=
  (r.find? id).map fun s => ({t | t ∈ s.topics}, s.outbox)

/-- What a session asks of the registry. -/
inductive Call where
  | connect (id : SessionId)
  | disconnect (id : SessionId)
  | subscribe (id : SessionId) (topic : String)
  | unsubscribe (id : SessionId) (topic : String)
deriving DecidableEq

namespace Call

/-- The session that makes a call. -/
def session : Call → SessionId
  | .connect id | .disconnect id | .subscribe id _ | .unsubscribe id _ => id

/-- The answer to a call, and the registry afterwards, which is the same one if the call
is refused. -/
def run : Call → Registry → Except Fault Bool × Registry
  | .connect id, r =>
    match r.connect id with
    | .ok r' => (.ok true, r')
    | .error fault => (.error fault, r)
  | .disconnect id, r => (.ok (r.disconnect id).1, (r.disconnect id).2)
  | .subscribe id topic, r =>
    match r.subscribe id topic with
    | .ok (added, r') => (.ok added, r')
    | .error fault => (.error fault, r)
  | .unsubscribe id topic, r =>
    match r.unsubscribe id topic with
    | .ok (removed, r') => (.ok removed, r')
    | .error fault => (.error fault, r)

end Call

variable {r r' : Registry} {id : SessionId} {topic : String}

/-! ## Sessions by identifier -/

theorem id_of_find? {s : Session} (h : r.find? id = some s) : s.id = id := by
  have hkey := List.find?_some h
  exact beq_iff_eq.mp hkey

theorem standing?_eq_none_iff : r.standing? id = none ↔ r.find? id = none := by
  rw [standing?, Option.map_eq_none_iff]

theorem isConnected_eq (r : Registry) (id : SessionId) :
    r.isConnected id = (r.standing? id).isSome := by
  rw [isConnected, standing?, Option.isSome_map]

theorem standing?_congr (h : r'.sessions = r.sessions) : r'.standing? = r.standing? := by
  funext id
  rw [standing?, standing?, find?, find?, h]

theorem find?_setTopics (id other : SessionId) (change : List String → List String) :
    (r.setTopics id change).find? other =
      (r.find? other).map fun s =>
        if other = id then { s with topics := change s.topics } else s := by
  have hkeep : ((fun s : Session => s.id == other) ∘ fun s =>
      if s.id == id then { s with topics := change s.topics } else s) = fun s => s.id == other := by
    funext s
    rw [Function.comp_apply]
    split <;> rfl
  rw [find?, find?, setTopics, List.find?_map, hkeep]
  cases hfind : r.sessions.find? fun s => s.id == other with
  | none => rfl
  | some s =>
    have hid : s.id = other := id_of_find? hfind
    simp [hid]

/-- New topics of a session are an update of the map. -/
theorem standing?_setTopics {s : Session} (h : r.find? id = some s)
    (change : List String → List String) :
    (r.setTopics id change).standing? =
      Function.update r.standing? id (some ({t | t ∈ change s.topics}, s.outbox)) := by
  funext other
  rw [standing?, find?_setTopics, Option.map_map]
  by_cases hid : other = id
  · subst hid
    rw [h, Function.update_self]
    simp
  · rw [Function.update_of_ne hid, standing?]
    simp only [hid, if_false]
    rfl

/-! ## Calls -/

theorem run_connect_of_none (h : r.standing? id = none) :
    ∃ r', (Call.connect id).run r = (.ok true, r') ∧
      r'.standing? = Function.update r.standing? id (some (∅, r.outboxes.length)) ∧
      r'.outboxes = r.outboxes ++ [.fresh] := by
  have hfree : r.isConnected id = false := by rw [isConnected_eq, h]; rfl
  refine ⟨_, by rw [Call.run, connect, hfree]; rfl, ?_, rfl⟩
  funext other
  rw [standing?, find?, List.find?_append]
  by_cases hid : other = id
  · subst hid
    have hnone : r.sessions.find? (fun s => s.id == other) = none := standing?_eq_none_iff.mp h
    simp [hnone]
  · have hnew : ([⟨id, [], r.outboxes.length⟩] : List Session).find? (fun s => s.id == other) =
        none := by
      simp [Ne.symm hid]
    rw [hnew, Option.or_none, Function.update_of_ne hid]
    rfl

theorem run_connect_of_some {e : Set String × Nat} (h : r.standing? id = some e) :
    (Call.connect id).run r = (.error (.alreadyConnected id), r) := by
  have htaken : r.isConnected id = true := by rw [isConnected_eq, h]; rfl
  rw [Call.run, connect, htaken]
  rfl

theorem standing?_disconnect (r : Registry) (id : SessionId) :
    (r.disconnect id).2.standing? = Function.update r.standing? id none := by
  funext other
  rw [standing?, find?, disconnect, List.find?_filter]
  by_cases hid : other = id
  · subst hid
    rw [Function.update_self, Option.map_eq_none_iff, List.find?_eq_none]
    intro s _
    simp
  · have hsame : (fun s : Session => decide ((s.id != id) = true ∧ (s.id == other) = true)) =
        fun s => s.id == other := by
      funext s
      by_cases hs : s.id = other
      · simp [hs, hid]
      · simp [hs]
    rw [Function.update_of_ne hid, hsame]
    rfl

theorem run_disconnect_of_none (h : r.standing? id = none) :
    (Call.disconnect id).run r = (.ok false, r) := by
  have hfree : r.isConnected id = false := by rw [isConnected_eq, h]; rfl
  have hkept : (r.sessions.filter fun s => s.id != id) = r.sessions := by
    refine List.filter_eq_self.mpr fun s hs => ?_
    have hother := List.find?_eq_none.mp (standing?_eq_none_iff.mp h) s hs
    simpa using hother
  rw [Call.run, disconnect, hfree, hkept]

theorem run_disconnect_of_some {e : Set String × Nat} (h : r.standing? id = some e) :
    ∃ r', (Call.disconnect id).run r = (.ok true, r') ∧
      r'.standing? = Function.update r.standing? id none := by
  have hknown : r.isConnected id = true := by rw [isConnected_eq, h]; rfl
  exact ⟨(r.disconnect id).2, by rw [Call.run, ← hknown]; rfl, standing?_disconnect r id⟩

theorem run_subscribe_of_none (h : r.standing? id = none) :
    (Call.subscribe id topic).run r = (.error (.notConnected id), r) := by
  rw [Call.run, subscribe, standing?_eq_none_iff.mp h]

theorem run_unsubscribe_of_none (h : r.standing? id = none) :
    (Call.unsubscribe id topic).run r = (.error (.notConnected id), r) := by
  rw [Call.run, unsubscribe, standing?_eq_none_iff.mp h]

theorem run_subscribe_of_some (topic : String) {topics : Set String} {place : Nat}
    (h : r.standing? id = some (topics, place)) :
    ∃ added r', (Call.subscribe id topic).run r = (.ok added, r') ∧
      (added = true ↔ topic ∉ topics) ∧
      r'.standing? = Function.update r.standing? id (some (insert topic topics, place)) ∧
      (added = false → r' = r) := by
  obtain ⟨s, hs, heq⟩ := Option.map_eq_some_iff.mp h
  cases heq
  by_cases hmem : topic ∈ s.topics
  · refine ⟨false, r, ?_, by simpa using hmem, ?_, fun _ => rfl⟩
    · rw [Call.run, subscribe, hs]
      simp [hmem]
    · have hsame : insert topic {t | t ∈ s.topics} = {t | t ∈ s.topics} :=
        Set.insert_eq_of_mem hmem
      rw [hsame, ← h, Function.update_eq_self]
  · refine ⟨true, r.setTopics id fun topics => topics ++ [topic], ?_,
      by simpa using hmem, ?_, nofun⟩
    · rw [Call.run, subscribe, hs]
      simp [hmem]
    · rw [standing?_setTopics hs]
      congr 3
      ext t
      simp [or_comm]

theorem run_unsubscribe_of_some (topic : String) {topics : Set String} {place : Nat}
    (h : r.standing? id = some (topics, place)) :
    ∃ removed r', (Call.unsubscribe id topic).run r = (.ok removed, r') ∧
      (removed = true ↔ topic ∈ topics) ∧
      r'.standing? = Function.update r.standing? id (some (topics \ {topic}, place)) ∧
      (removed = false → r' = r) := by
  obtain ⟨s, hs, heq⟩ := Option.map_eq_some_iff.mp h
  cases heq
  by_cases hmem : topic ∈ s.topics
  · refine ⟨true, r.setTopics id fun topics => topics.filter (· != topic), ?_,
      by simpa using hmem, ?_, nofun⟩
    · rw [Call.run, unsubscribe, hs]
      simp [hmem]
    · rw [standing?_setTopics hs]
      congr 3
      ext t
      simp
  · refine ⟨false, r, ?_, by simpa using hmem, ?_, fun _ => rfl⟩
    · rw [Call.run, unsubscribe, hs]
      simp [hmem]
    · have hsame : {t | t ∈ s.topics} \ {topic} = {t | t ∈ s.topics} :=
        Set.sdiff_singleton_eq_self hmem
      rw [hsame, ← h, Function.update_eq_self]

/-- A call is an update of the map at the session that makes it. -/
theorem exists_standing?_run (c : Call) (r : Registry) :
    ∃ e, (c.run r).2.standing? = Function.update r.standing? c.session e := by
  have hsame : ∀ id, r.standing? = Function.update r.standing? id (r.standing? id) := fun id =>
    (Function.update_eq_self id r.standing?).symm
  cases c with
  | connect id =>
    cases he : r.standing? id with
    | none =>
      obtain ⟨r', hrun, hstanding, -⟩ := run_connect_of_none he
      exact ⟨_, by rw [hrun]; exact hstanding⟩
    | some e => exact ⟨_, by rw [run_connect_of_some he]; exact hsame id⟩
  | disconnect id => exact ⟨none, standing?_disconnect r id⟩
  | subscribe id topic =>
    cases he : r.standing? id with
    | none => exact ⟨_, by rw [run_subscribe_of_none he]; exact hsame id⟩
    | some e =>
      obtain ⟨added, r', hrun, -, hstanding, -⟩ := run_subscribe_of_some topic he
      exact ⟨_, by rw [hrun]; exact hstanding⟩
  | unsubscribe id topic =>
    cases he : r.standing? id with
    | none => exact ⟨_, by rw [run_unsubscribe_of_none he]; exact hsame id⟩
    | some e =>
      obtain ⟨removed, r', hrun, -, hstanding, -⟩ := run_unsubscribe_of_some topic he
      exact ⟨_, by rw [hrun]; exact hstanding⟩

theorem standing?_run_of_ne {c : Call} (h : id ≠ c.session) :
    (c.run r).2.standing? id = r.standing? id := by
  obtain ⟨e, he⟩ := exists_standing?_run c r
  rw [he, Function.update_of_ne h]

theorem update_ne_self {e : Option (Set String × Nat)} (h : e ≠ r.standing? id) :
    Function.update r.standing? id e ≠ r.standing? := by
  intro heq
  have hid := congrFun heq id
  rw [Function.update_self] at hid
  exact h hid

/-- What a call answers says whether the map is another one afterwards. -/
theorem changed_iff {c : Call} {changed : Bool} (h : c.run r = (.ok changed, r')) :
    (changed = true ↔ r'.standing? ≠ r.standing?) ∧ (changed = false → r' = r) := by
  have hiff (hkept : changed = false → r' = r)
      (hnew : changed = true → r'.standing? ≠ r.standing?) :
      (changed = true ↔ r'.standing? ≠ r.standing?) ∧ (changed = false → r' = r) := by
    refine ⟨⟨hnew, fun hne => ?_⟩, hkept⟩
    cases changed with
    | true => rfl
    | false => exact absurd (congrArg standing? (hkept rfl)) hne
  cases c with
  | connect id =>
    cases he : r.standing? id with
    | none =>
      obtain ⟨r'', hrun, hstanding, -⟩ := run_connect_of_none he
      cases hrun.symm.trans h
      refine hiff nofun fun _ => ?_
      rw [hstanding]
      exact update_ne_self (by simp [he])
    | some e => cases (run_connect_of_some he).symm.trans h
  | disconnect id =>
    cases he : r.standing? id with
    | none =>
      cases (run_disconnect_of_none he).symm.trans h
      exact hiff (fun _ => rfl) nofun
    | some e =>
      obtain ⟨r'', hrun, hstanding⟩ := run_disconnect_of_some he
      cases hrun.symm.trans h
      refine hiff nofun fun _ => ?_
      rw [hstanding]
      exact update_ne_self (by simp [he])
  | subscribe id topic =>
    cases he : r.standing? id with
    | none => cases (run_subscribe_of_none he).symm.trans h
    | some e =>
      obtain ⟨added, r'', hrun, hadded, hstanding, hkept⟩ := run_subscribe_of_some topic he
      cases hrun.symm.trans h
      refine hiff hkept fun htrue => ?_
      have hinsert : insert topic e.1 ≠ e.1 := fun heq =>
        hadded.mp htrue (heq ▸ Set.mem_insert topic e.1)
      rw [hstanding]
      exact update_ne_self (by simp [he, Prod.ext_iff, hinsert])
  | unsubscribe id topic =>
    cases he : r.standing? id with
    | none => cases (run_unsubscribe_of_none he).symm.trans h
    | some e =>
      obtain ⟨removed, r'', hrun, hremoved, hstanding, hkept⟩ :=
        run_unsubscribe_of_some topic he
      cases hrun.symm.trans h
      refine hiff hkept fun htrue => ?_
      have hdiff : e.1 \ {topic} ≠ e.1 := fun heq => by
        have hmem : topic ∈ e.1 \ {topic} := heq.symm ▸ hremoved.mp htrue
        exact hmem.2 rfl
      rw [hstanding]
      exact update_ne_self (by simp [he, Prod.ext_iff, hdiff])

/-- The answers of a registry to the calls of sessions. -/
structure Answers (r : Registry) : Prop where
  connect_again : ∀ id, r.isConnected id = true →
    (Call.connect id).run r = (.error (.alreadyConnected id), r)
  connect_new : ∀ id, r.isConnected id = false → ∃ r',
    (Call.connect id).run r = (.ok true, r') ∧
      r'.standing? = Function.update r.standing? id (some (∅, r.outboxes.length)) ∧
      r'.outboxes = r.outboxes ++ [.fresh]
  unregistered : ∀ id topic, r.isConnected id = false →
    (Call.subscribe id topic).run r = (.error (.notConnected id), r) ∧
      (Call.unsubscribe id topic).run r = (.error (.notConnected id), r) ∧
      (Call.disconnect id).run r = (.ok false, r)
  disconnect : ∀ id, r.isConnected id = true → ∃ r',
    (Call.disconnect id).run r = (.ok true, r') ∧ r'.standing? = Function.update r.standing? id none
  subscribe : ∀ id topic topics place, r.standing? id = some (topics, place) → ∃ added r',
    (Call.subscribe id topic).run r = (.ok added, r') ∧
      r'.standing? = Function.update r.standing? id (some (insert topic topics, place))
  unsubscribe : ∀ id topic topics place, r.standing? id = some (topics, place) → ∃ removed r',
    (Call.unsubscribe id topic).run r = (.ok removed, r') ∧
      r'.standing? = Function.update r.standing? id (some (topics \ {topic}, place))
  changed : ∀ (c : Call) changed r', c.run r = (.ok changed, r') →
    (changed = true ↔ r'.standing? ≠ r.standing?) ∧ (changed = false → r' = r)

theorem isConnected_iff : r.isConnected id = true ↔ ∃ e, r.standing? id = some e := by
  rw [isConnected_eq, Option.isSome_iff_exists]

theorem not_isConnected_iff : r.isConnected id = false ↔ r.standing? id = none := by
  rw [isConnected_eq, Option.isSome_eq_false_iff, Option.isNone_iff_eq_none]

theorem answers (r : Registry) : r.Answers where
  connect_again id h := by
    obtain ⟨e, he⟩ := isConnected_iff.mp h
    exact run_connect_of_some he
  connect_new id h := run_connect_of_none (not_isConnected_iff.mp h)
  unregistered id topic h :=
    have hnone := not_isConnected_iff.mp h
    ⟨run_subscribe_of_none hnone, run_unsubscribe_of_none hnone, run_disconnect_of_none hnone⟩
  disconnect id h := by
    obtain ⟨e, he⟩ := isConnected_iff.mp h
    exact run_disconnect_of_some he
  subscribe id topic topics place h := by
    obtain ⟨added, r', hrun, -, hstanding, -⟩ := run_subscribe_of_some topic h
    exact ⟨added, r', hrun, hstanding⟩
  unsubscribe id topic topics place h := by
    obtain ⟨removed, r', hrun, -, hstanding, -⟩ := run_unsubscribe_of_some topic h
    exact ⟨removed, r', hrun, hstanding⟩
  changed c changed r' h := changed_iff h

end Registry
end BotFleet
