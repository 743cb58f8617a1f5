import BotFleet.Proofs.Registry.Fanout
import BotFleet.Socket

/-
The course of a session, from its connect to its removal.

What is queued for a session depends on the events so far and on nothing else: each
message gets its answer, and a change is told if the last frame of the client about the
topic asks for it.  `Serves` says this of one moment.  `Item.Ends` says which items end a
session and with which code, and `Parting` how the first of them parts the events.  An
event before the end carries the session to the next moment, and the end takes it out of the
registry, so that nothing later concerns it.

The theorem this file exists for is `run_conducted`.
-/

namespace BotFleet
namespace Socket

open Registry (Call)

/-! ## What a session is to hear -/

/-- The frame of the client that an item is, if it is one. -/
def Item.frame? : Item → Option (Frame ClientMethod)
  | .text payload => (Frame.decode payload).toOption
  | _ => none

/-- What an item is answered with: a message that is no frame comes back. -/
def Item.answer? (item : Item) : Option (Frame ServerMethod) :=
  match item with
  | .text payload => some (if item.frame?.isSome then .ok else .bad payload)
  | .binary bytes => some (.bad (String.ofList (Utf8.decodeLossy bytes)))
  | _ => none

def Event.item? : Event → Option Item
  | .received item => some item
  | .changed _ => none

def Event.topic? : Event → Option String
  | .received _ => none
  | .changed topic => some topic

def Event.frame? (e : Event) : Option (Frame ClientMethod) := e.item?.bind Item.frame?

/-- The last frame of the client about a topic asks for it. -/
def Subscribed (topic : String) (past : List Event) : Prop :=
  ((past.filterMap Event.frame?).filter (·.body == topic)).getLast?.map (·.method) =
    some .subscribe

instance (topic : String) (past : List Event) : Decidable (Subscribed topic past) :=
  inferInstanceAs (Decidable (_ = _))

/-- What is queued for the session at an event, after these. -/
def Event.queued (past : List Event) : Event → List (Frame ServerMethod)
  | .received item => item.answer?.toList
  | .changed topic => if Subscribed topic past then [.update topic] else []

/-- What is queued for the session, one event after another. -/
def queuedOver (past : List Event) : List Event → List (Frame ServerMethod)
  | [] => []
  | e :: coming => e.queued past ++ queuedOver (past ++ [e]) coming

/-! ## The end of a session -/

/-- A close frame ends a session with its code, or with 1005 if it has none, and a lost
connection with 1006. -/
inductive Item.Ends : Item → Nat → Prop
  | closed (code : Nat) : Ends (.close (some code)) code
  | closedWithoutCode : Ends (.close none) 1005
  | lost : Ends .lost 1006

def Event.Ends (e : Event) (code : Nat) : Prop := ∃ item, e = .received item ∧ item.Ends code

/-- None of the events ends the session. -/
def Lasts (events : List Event) : Prop := ∀ e ∈ events, ∀ code, ¬e.Ends code

/-- The events of a session are those that it hears, the one that ends it with the code, and
those that it misses.  When nothing more comes in, the connection is lost. -/
inductive Parting : List Event → List Event → Nat → List Event → Prop
  | ended {heard missed : List Event} {e : Event} {code : Nat} (hlasts : Lasts heard)
    (hends : e.Ends code) : Parting (heard ++ e :: missed) heard code missed
  | lost {events : List Event} (hlasts : Lasts events) : Parting events events 1006 []

/-- What the log says when a session ends: nothing if it was closed in good order. -/
def farewell (id : SessionId) (code : Nat) : List Notice :=
  if code = 1000 ∨ code = 1001 then []
  else
    [.warning ("[Registry] Session " ++ id ++ " closed abnormally with status " ++ toString code)]

/-- The line of the log about a session whose notices nobody takes any more. -/
def PassesOver (notice : Notice) : Prop :=
  ∃ topic id, notice =
    .warning ("[Notify] Session " ++ id ++ " is gone, skipping UPDATE for " ++ topic)

theorem Item.status?_eq_some_iff {item : Item} {status : CloseStatus} :
    item.status? = some status ↔ item.Ends status.code := by
  constructor
  · intro h
    cases item with
    | close code =>
      cases code with
      | some code =>
        cases h
        exact .closed code
      | none =>
        cases h
        exact .closedWithoutCode
    | lost =>
      cases h
      exact .lost
    | text | binary | ping => cases h
  · obtain ⟨code⟩ := status
    rintro (_ | _ | _) <;> rfl

theorem Item.status?_eq_none {item : Item} (h : ∀ code, ¬(Event.received item).Ends code) :
    item.status? = none := by
  refine Option.eq_none_iff_forall_ne_some.mpr fun status hstatus => ?_
  exact h status.code ⟨item, rfl, status?_eq_some_iff.mp hstatus⟩

/-- Every sequence of events has a first one that ends the session, or none. -/
theorem exists_parting (events : List Event) :
    ∃ heard code missed, Parting events heard code missed := by
  induction events with
  | nil => exact ⟨[], 1006, [], .lost (List.forall_mem_nil _)⟩
  | cons e events ih =>
    by_cases he : ∃ code, e.Ends code
    · obtain ⟨code, hends⟩ := he
      have hparting : Parting ([] ++ e :: events) [] code events :=
        .ended (List.forall_mem_nil _) hends
      exact ⟨[], code, events, hparting⟩
    · obtain ⟨heard, code, missed, hparting⟩ := ih
      cases hparting with
      | ended hlasts hends =>
        exact ⟨e :: heard, code, _,
          .ended (List.forall_mem_cons.mpr ⟨not_exists.mp he, hlasts⟩) hends⟩
      | lost hlasts =>
        exact ⟨e :: events, 1006, [], .lost (List.forall_mem_cons.mpr ⟨not_exists.mp he, hlasts⟩)⟩

theorem subscribed_concat {topic : String} {past : List Event} {e : Event} :
    Subscribed topic (past ++ [e]) ↔
      match e.frame? with
      | some frame => if frame.body = topic then frame.method = .subscribe
          else Subscribed topic past
      | none => Subscribed topic past := by
  rw [Subscribed, List.filterMap_append, List.filter_append]
  cases hframe : e.frame? with
  | none => simp [hframe, Subscribed]
  | some frame =>
    by_cases hbody : frame.body = topic
    · simp [hframe, hbody]
    · simp [hframe, hbody, Subscribed]

/-- A reply never tells of a change, so replies can be told apart from notices. -/
theorem answer_ne_update {item : Item} {frame : Frame ServerMethod}
    (h : frame ∈ item.answer?) : frame.method ≠ .update := by
  intro hupdate
  cases item with
  | text payload =>
    cases h
    split at hupdate <;> cases hupdate
  | binary bytes =>
    cases h
    cases hupdate
  | ping | close | lost => cases h

/-- The replies among what is queued are the answers to the items, in their order. -/
theorem replies_queuedOver (past coming : List Event) :
    (queuedOver past coming).filter (·.method ≠ .update) =
      (coming.filterMap Event.item?).filterMap Item.answer? := by
  induction coming generalizing past with
  | nil => rfl
  | cons e coming ih =>
    rw [queuedOver, List.filter_append, ih]
    cases e with
    | received item =>
      have hitem : (item.answer?.toList).filter (·.method ≠ .update) = item.answer?.toList := by
        refine List.filter_eq_self.mpr fun frame hframe => ?_
        simpa using answer_ne_update (Option.mem_toList.mp hframe)
      show (item.answer?.toList).filter _ ++ _ = (item :: coming.filterMap Event.item?).filterMap _
      rw [hitem]
      cases hanswer : item.answer? with
      | none => simp [hanswer]
      | some frame => simp [hanswer]
    | changed topic =>
      have hnotice : (Event.queued past (.changed topic)).filter (·.method ≠ .update) = [] := by
        rw [Event.queued]
        split
        · rfl
        · rfl
      rw [hnotice]
      rfl

/-! ## One moment of a session -/

/-- The session is registered, with the topics that it asked for so far, and the frames are
queued in its outbox, from which somebody takes. -/
structure Serves (r : Registry) (id : SessionId) (place : Nat) (past : List Event)
    (frames : List (Frame ServerMethod)) : Prop where
  sound : r.Sound
  standing : r.standing? id = some ({t | Subscribed t past}, place)
  outbox : r.outboxes[place]? = some ⟨frames, true⟩

variable {r : Registry} {id : SessionId} {place : Nat} {past : List Event}
variable {frames : List (Frame ServerMethod)}

theorem Serves.isTaken (h : Serves r id place past frames) : isTaken place r = true := by
  rw [Socket.isTaken, h.outbox]
  rfl

/-- Only its own status ends the session at an item. -/
theorem Serves.ending? (h : Serves r id place past frames) (item : Item) :
    Socket.ending? id place item r = item.status? := by
  rw [Socket.ending?, h.isTaken]
  cases item.status? with
  | some status => rfl
  | none => simp

/-- The call on the registry that a frame of the client stands for. -/
def callOf (id : SessionId) (frame : Frame ClientMethod) : Call :=
  match frame.method with
  | .subscribe => .subscribe id frame.body
  | .unsubscribe => .unsubscribe id frame.body

theorem run_callOf (id : SessionId) (frame : Frame ClientMethod) (r : Registry) :
    (callOf id frame).run r =
      match apply frame id r with
      | .ok (changed, r') => (.ok changed, r')
      | .error fault => (.error fault, r) := by
  obtain ⟨method, body⟩ := frame
  cases method <;> rfl

theorem outboxes_apply {frame : Frame ClientMethod} {changed : Bool} {r' : Registry}
    (h : apply frame id r = .ok (changed, r')) : r'.outboxes = r.outboxes := by
  obtain ⟨method, body⟩ := frame
  cases method with
  | subscribe =>
    have hcall : r.subscribe id body = .ok (changed, r') := h
    unfold Registry.subscribe at hcall
    split at hcall
    · cases hcall
    · split at hcall <;> cases hcall <;> rfl
  | unsubscribe =>
    have hcall : r.unsubscribe id body = .ok (changed, r') := h
    unfold Registry.unsubscribe at hcall
    split at hcall
    · cases hcall
    · split at hcall <;> cases hcall <;> rfl

/-- The registry takes every frame of a registered session. -/
theorem apply_of_standing (frame : Frame ClientMethod) {standing : Set String × Nat}
    (h : r.standing? id = some standing) :
    ∃ changed, apply frame id r = .ok (changed, r.next (.call (callOf id frame))) := by
  have hrun := run_callOf id frame r
  have haccepted : ∃ changed r', (callOf id frame).run r = (.ok changed, r') := by
    obtain ⟨method, body⟩ := frame
    cases method with
    | subscribe =>
      obtain ⟨added, r', hadded, -⟩ := Registry.run_subscribe_of_some body h
      exact ⟨added, r', hadded⟩
    | unsubscribe =>
      obtain ⟨removed, r', hremoved, -⟩ := Registry.run_unsubscribe_of_some body h
      exact ⟨removed, r', hremoved⟩
  obtain ⟨changed, r', haccepted⟩ := haccepted
  refine ⟨changed, ?_⟩
  rw [Registry.next, haccepted]
  rw [haccepted] at hrun
  cases happly : apply frame id r with
  | error fault =>
    rw [happly] at hrun
    cases hrun
  | ok applied =>
    rw [happly] at hrun
    cases hrun
    rfl

theorem subscribed_received {frame : Frame ClientMethod} {item : Item} (topic : String)
    (hframe : item.frame? = some frame) :
    Subscribed topic (past ++ [.received item]) ↔
      if (Registry.Event.call (callOf id frame)).isAbout id topic then
        Registry.Event.call (callOf id frame) = .call (.subscribe id topic)
      else Subscribed topic past := by
  have hevent : (Event.received item).frame? = some frame := hframe
  rw [subscribed_concat, hevent]
  obtain ⟨method, body⟩ := frame
  cases method <;> by_cases hbody : body = topic <;>
    simp [callOf, Registry.Event.isAbout, hbody]

/-- A frame of the client asks for its topic, or no longer. -/
theorem Serves.apply (h : Serves r id place past frames) {item : Item}
    {frame : Frame ClientMethod} (hframe : item.frame? = some frame) :
    ∃ changed r', Socket.apply frame id r = .ok (changed, r') ∧
      Serves r' id place (past ++ [.received item]) frames ∧
      ∀ other, other ≠ id → r'.standing? other = r.standing? other := by
  obtain ⟨changed, happly⟩ := apply_of_standing frame h.standing
  have hcaller : (callOf id frame).session = id := by
    obtain ⟨method, body⟩ := frame
    cases method <;> rfl
  have hstay : Registry.Event.call (callOf id frame) ≠ .call (.disconnect id) := by
    obtain ⟨method, body⟩ := frame
    cases method <;> simp [callOf]
  refine ⟨changed, _, happly, ⟨h.sound.next _, ?_, ?_⟩, ?_⟩
  · rw [Registry.standing?_next_of_some h.standing hstay]
    refine congrArg (fun topics => some (topics, place)) (Set.ext fun topic => ?_)
    exact (subscribed_received topic hframe).symm
  · rw [outboxes_apply happly]
    exact h.outbox
  · intro other hother
    exact Registry.standing?_run_of_ne (hcaller.symm ▸ hother)

theorem Serves.push (h : Serves r id place past frames) (frame : Frame ServerMethod) :
    Serves { r with outboxes := r.outboxes.modify place (·.push frame) } id place past
      (frames ++ [frame]) where
  sound := h.sound.modify _ _
  standing := h.standing
  outbox := by
    rw [List.getElem?_modify, h.outbox]
    simp [Outbox.push]

/-- What is no frame of the client leaves the topics as they are. -/
theorem Serves.pass (h : Serves r id place past frames) {e : Event} (he : e.frame? = none) :
    Serves r id place (past ++ [e]) frames where
  sound := h.sound
  standing := by
    have hsame : {t | Subscribed t (past ++ [e])} = {t | Subscribed t past} := by
      ext topic
      show Subscribed topic (past ++ [e]) ↔ Subscribed topic past
      rw [subscribed_concat, he]
    rw [hsame]
    exact h.standing
  outbox := h.outbox

theorem answer_of_reply {item : Item} {reply : Reply} (h : reply? id item r = some reply) :
    Socket.answer id place item r =
      ({ reply.registry with
          outboxes := reply.registry.outboxes.modify place (·.push reply.frame) },
        reply.notices) := by
  rw [Socket.answer, h]

/-- An item that does not end the session gets its answer, and the other sessions stay as
they are. -/
theorem Serves.answer (h : Serves r id place past frames) {item : Item}
    (hopen : ∀ code, ¬(Event.received item).Ends code) :
    ∃ r', Socket.answer id place item r = (r', []) ∧
      Serves r' id place (past ++ [.received item]) (frames ++ item.answer?.toList) ∧
      ∀ other, other ≠ id → r'.standing? other = r.standing? other := by
  cases item with
  | text payload =>
    cases hdecode : (Frame.decode payload : Except Frame.Fault (Frame ClientMethod)) with
    | error fault =>
      have hframe : (Item.text payload).frame? = none := by rw [Item.frame?, hdecode]; rfl
      have hanswer : (Item.text payload).answer? = some (.bad payload) := by
        rw [Item.answer?, hframe]
        rfl
      have hreply : reply? id (.text payload) r = some ⟨.bad payload, r, []⟩ := by
        rw [reply?, handle, hdecode]
      refine ⟨_, answer_of_reply hreply, ?_, fun _ _ => rfl⟩
      have hpassed : Serves r id place (past ++ [.received (.text payload)]) frames :=
        h.pass hframe
      rw [hanswer]
      exact hpassed.push _
    | ok frame =>
      have hframe : (Item.text payload).frame? = some frame := by rw [Item.frame?, hdecode]; rfl
      have hanswer : (Item.text payload).answer? = some .ok := by
        rw [Item.answer?, hframe]
        rfl
      obtain ⟨changed, r', happly, hserves, hothers⟩ := h.apply hframe
      have hreply : reply? id (.text payload) r = some ⟨.ok, r', []⟩ := by
        rw [reply?, handle, hdecode]
        dsimp only
        rw [happly]
      refine ⟨_, answer_of_reply hreply, ?_, hothers⟩
      rw [hanswer]
      exact hserves.push _
  | binary bytes =>
    have hreply : reply? id (.binary bytes) r =
        some ⟨.bad (String.ofList (Utf8.decodeLossy bytes)), r, []⟩ := rfl
    have hpassed : Serves r id place (past ++ [.received (.binary bytes)]) frames := h.pass rfl
    exact ⟨_, answer_of_reply hreply, hpassed.push _, fun _ _ => rfl⟩
  | ping =>
    have hpassed : Serves r id place (past ++ [.received .ping]) frames := h.pass rfl
    refine ⟨r, rfl, ?_, fun _ _ => rfl⟩
    show Serves r id place _ (frames ++ [])
    rw [List.append_nil]
    exact hpassed
  | close code =>
    cases code with
    | some code => exact absurd ⟨_, rfl, .closed code⟩ (hopen code)
    | none => exact absurd ⟨_, rfl, .closedWithoutCode⟩ (hopen 1005)
  | lost => exact absurd ⟨_, rfl, .lost⟩ (hopen 1006)

/-- A change is told if the client has asked for its topic. -/
theorem Serves.tell (h : Serves r id place past frames) (topic : String) :
    Serves (r.notify topic).registry id place (past ++ [.changed topic])
      (frames ++ Event.queued past (.changed topic)) := by
  obtain ⟨s, hs, -, hplace, htopics⟩ := Registry.exists_of_standing? h.standing
  have hlive : r.isReceiving s = true :=
    Registry.isReceiving_iff.mpr ⟨_, hplace ▸ h.outbox, rfl⟩
  have hsubscribed : Subscribed topic past ↔ topic ∈ s.topics := Set.ext_iff.mp htopics topic
  obtain ⟨o, hbefore, hafter⟩ := h.sound.queued_notify topic hs
  rw [hplace, h.outbox] at hbefore
  cases hbefore
  refine ⟨h.sound.next (.notified topic), ?_, ?_⟩
  · rw [Registry.standing?_congr (Registry.notify_sessions topic r)]
    exact (h.pass rfl).standing
  · rw [← hplace, hafter, Event.queued]
    by_cases htold : topic ∈ s.topics
    · rw [if_pos ⟨htold, hlive⟩, if_pos (hsubscribed.mpr htold)]
    · rw [if_neg fun hboth => htold hboth.1, if_neg (mt hsubscribed.mp htold)]

/-! ## The whole course -/

namespace Course

/-- Goes on after an event that does not end the session. -/
def attend (id : SessionId) (place : Nat) (c : Course) : Event → Course
  | .received item =>
    let (registry, notices) := answer id place item c.registry
    { c with registry, notices := c.notices ++ notices }
  | .changed topic => c.tell topic

/-- Takes the session out of the registry, which ends it. -/
def leave (id : SessionId) (status : CloseStatus) (c : Course) : Course :=
  let (registry, notices) := Socket.leave id status c.registry
  ⟨registry, c.notices ++ notices, true⟩

end Course

variable {c : Course} {e : Event} {events : List Event}

theorem next_of_open (h : Serves c.registry id place past frames) (hended : c.ended = false)
    (hopen : ∀ code, ¬e.Ends code) : c.next id place e = c.attend id place e := by
  cases e with
  | changed topic => rfl
  | received item =>
    have hitem := Item.status?_eq_none hopen
    have hstep : step id place item c.registry = answer id place item c.registry := by
      rw [step, h.ending?, hitem]
    rw [Course.next, Course.receive, hended, hstep, h.ending?, hitem, Course.attend, hended]
    rfl

theorem next_of_ends {code : Nat} (h : Serves c.registry id place past frames)
    (hended : c.ended = false) (hends : e.Ends code) : c.next id place e = c.leave id ⟨code⟩ := by
  obtain ⟨item, rfl, hitem⟩ := hends
  have hstatus : item.status? = some ⟨code⟩ := Item.status?_eq_some_iff.mpr hitem
  have hnothing : answer id place item c.registry = (c.registry, []) := by
    cases hitem <;> rfl
  rw [Course.next, Course.receive, hended, step, h.ending?, hstatus, hnothing]
  rfl

/-- Once a session has ended, only what others tell goes on. -/
theorem foldl_next_of_ended (hended : c.ended = true) :
    events.foldl (Course.next id place) c =
      (events.filterMap Event.topic?).foldl (fun c topic => c.tell topic) c := by
  induction events generalizing c with
  | nil => rfl
  | cons e events ih =>
    cases e with
    | received item =>
      have hsame : c.next id place (.received item) = c := by
        rw [Course.next, Course.receive, hended]
        rfl
      rw [List.foldl_cons, hsame, ih hended]
      rfl
    | changed topic => exact ih hended

theorem passesOver_of_notify {topic : String} {notice : Notice}
    (h : notice ∈ (r.notify topic).notices) : PassesOver notice := by
  obtain ⟨s, -, rfl⟩ := List.mem_map.mp h
  exact ⟨topic, s.id, rfl⟩

/-- What the events that do not end the session lead to. -/
structure Attends (id : SessionId) (place : Nat) (past : List Event)
    (frames : List (Frame ServerMethod)) (coming : List Event) (c c' : Course) : Prop where
  serves : Serves c'.registry id place (past ++ coming) (frames ++ queuedOver past coming)
  notices : ∀ notice ∈ c'.notices, notice ∈ c.notices ∨ PassesOver notice
  others : ∀ other, other ≠ id → c'.registry.standing? other = c.registry.standing? other
  ended : c'.ended = false

theorem attends_next (h : Serves c.registry id place past frames) (hended : c.ended = false)
    (hopen : ∀ code, ¬e.Ends code) :
    Attends id place past frames [e] c (c.attend id place e) := by
  have hqueued : queuedOver past [e] = e.queued past := by
    rw [queuedOver, queuedOver, List.append_nil]
  cases e with
  | received item =>
    obtain ⟨r', hanswer, hserves, hothers⟩ := h.answer hopen
    rw [Course.attend, hanswer]
    refine ⟨hqueued.symm ▸ hserves, fun notice hnotice => .inl ?_, hothers, hended⟩
    exact List.append_nil c.notices ▸ hnotice
  | changed topic =>
    refine ⟨hqueued.symm ▸ h.tell topic, fun notice hnotice => ?_, fun other _ => ?_, hended⟩
    · exact (List.mem_append.mp hnotice).imp_right passesOver_of_notify
    · exact congrFun (Registry.standing?_congr (Registry.notify_sessions topic c.registry)) other

theorem foldl_attend (h : Serves c.registry id place past frames) (hended : c.ended = false)
    {coming : List Event} (hlasts : Lasts coming) :
    coming.foldl (Course.next id place) c = coming.foldl (Course.attend id place) c ∧
      Attends id place past frames coming c (coming.foldl (Course.attend id place) c) := by
  induction coming generalizing c past frames with
  | nil =>
    refine ⟨rfl, ?_, fun _ hnotice => .inl hnotice, fun _ _ => rfl, hended⟩
    rw [queuedOver, List.append_nil, List.append_nil]
    exact h
  | cons e coming ih =>
    obtain ⟨he, hcoming⟩ := List.forall_mem_cons.mp hlasts
    obtain ⟨hserves, hnotices, hothers, hgoing⟩ := attends_next h hended he
    rw [queuedOver, queuedOver, List.append_nil] at hserves
    obtain ⟨hnext, hattends⟩ := ih hserves hgoing hcoming
    rw [List.foldl_cons, List.foldl_cons, next_of_open h hended he]
    refine ⟨hnext, ?_, fun notice hnotice => ?_, fun other hother => ?_, hattends.ended⟩
    · have hall := hattends.serves
      rw [List.append_assoc, List.append_assoc] at hall
      exact hall
    · exact (hattends.notices notice hnotice).elim (hnotices notice) .inr
    · rw [hattends.others other hother, hothers other hother]

theorem ended_foldl_tell (topics : List String) (c : Course) :
    (topics.foldl (fun c topic => c.tell topic) c).ended = c.ended := by
  induction topics generalizing c with
  | nil => rfl
  | cons topic topics ih => exact ih (c.tell topic)

/-- What others tell does not concern a place that no session has. -/
theorem foldl_tell (hplace : place ∉ c.registry.places) (topics : List String) :
    let c' := topics.foldl (fun c topic => c.tell topic) c
    c'.registry.standing? = c.registry.standing? ∧
      c'.registry.outboxes[place]? = c.registry.outboxes[place]? := by
  induction topics generalizing c with
  | nil => exact ⟨rfl, rfl⟩
  | cons topic topics ih =>
    have hkept : place ∉ (c.tell topic).registry.places := by
      show place ∉ (c.registry.notify topic).registry.places
      rw [Registry.notify_places]
      exact hplace
    obtain ⟨hstanding, houtbox⟩ := ih hkept
    refine ⟨hstanding.trans ?_, houtbox.trans ?_⟩
    · exact Registry.standing?_congr (Registry.notify_sessions topic c.registry)
    · exact Registry.notify_outbox_of_not_mem hplace

theorem foldl_tell_notices (topics : List String) (c : Course) :
    ∃ later, (topics.foldl (fun c topic => c.tell topic) c).notices = c.notices ++ later ∧
      ∀ notice ∈ later, PassesOver notice := by
  induction topics generalizing c with
  | nil => exact ⟨[], (List.append_nil _).symm, List.forall_mem_nil _⟩
  | cons topic topics ih =>
    obtain ⟨later, hnotices, hlater⟩ := ih (c.tell topic)
    refine ⟨(c.registry.notify topic).notices ++ later, ?_, fun notice hnotice => ?_⟩
    · rw [List.foldl_cons, hnotices, ← List.append_assoc]
      rfl
    · exact (List.mem_append.mp hnotice).elim passesOver_of_notify (hlater notice)

/-- The log names the code with which a registered session ends. -/
theorem notices_leave {standing : Set String × Nat} (h : r.standing? id = some standing)
    (code : Nat) : (Socket.leave id ⟨code⟩ r).2 = farewell id code := by
  have hknown : r.isConnected id = true := Registry.isConnected_iff.mpr ⟨standing, h⟩
  have hline : "[Registry] Session " ++ id ++ " closed abnormally with status " ++ toString code =
      s!"[Registry] Session {id} closed abnormally with status {toString code}" := rfl
  show Registry.disconnectNotices id ⟨code⟩ (r.isConnected id) = _
  rw [hknown, farewell, hline]
  by_cases hcode : code = 1000 ∨ code = 1001
  · have hexpected : CloseStatus.isExpected ⟨code⟩ = true := by
      rcases hcode with rfl | rfl <;> rfl
    rw [if_pos hcode, Registry.disconnectNotices, hexpected]
    rfl
  · have hunexpected : CloseStatus.isExpected ⟨code⟩ = false := by
      simpa [CloseStatus.isExpected, CloseStatus.normal, CloseStatus.goingAway] using hcode
    rw [if_neg hcode, Registry.disconnectNotices, hunexpected]
    rfl

/-- What the events that it hears lead a session to. -/
def attended (id : SessionId) (place : Nat) (opened : Registry) (heard : List Event) : Course :=
  heard.foldl (Course.attend id place) ⟨opened, [], false⟩

theorem attends_heard {opened : Registry} {heard : List Event}
    (h : Serves opened id place [] []) (hlasts : Lasts heard) :
    heard.foldl (Course.next id place) ⟨opened, [], false⟩ = attended id place opened heard ∧
      Attends id place [] [] heard ⟨opened, [], false⟩ (attended id place opened heard) :=
  foldl_attend (c := ⟨opened, [], false⟩) h rfl hlasts

theorem Parting.lasts {heard missed : List Event} {code : Nat}
    (h : Parting events heard code missed) : Lasts heard := by
  cases h with
  | ended hlasts => exact hlasts
  | lost hlasts => exact hlasts

/-- A session attends to what it hears, is taken out of the registry once, and only what
others tell goes on after that. -/
theorem run_eq {opened : Registry} {heard missed : List Event} {code : Nat}
    (h : Serves opened id place [] []) (hparting : Parting events heard code missed) :
    run id place events opened =
      (missed.filterMap Event.topic?).foldl (fun c topic => c.tell topic)
        ((attended id place opened heard).leave id ⟨code⟩) := by
  obtain ⟨hheard, hattends⟩ := attends_heard h hparting.lasts
  have hend {e : Event} {code : Nat} (hends : e.Ends code) :
      (attended id place opened heard).next id place e =
        (attended id place opened heard).leave id ⟨code⟩ :=
    next_of_ends hattends.serves hattends.ended hends
  cases hparting with
  | lost hlasts =>
    rw [run, hheard]
    exact hend (e := .received .lost) ⟨.lost, rfl, .lost⟩
  | @ended _ _ e _ hlasts hends =>
    have hfold : (heard ++ e :: missed).foldl (Course.next id place) ⟨opened, [], false⟩ =
        (missed.filterMap Event.topic?).foldl (fun c topic => c.tell topic)
          ((attended id place opened heard).leave id ⟨code⟩) := by
      rw [List.foldl_append, hheard, List.foldl_cons, hend hends]
      exact foldl_next_of_ended rfl
    have hended : ((missed.filterMap Event.topic?).foldl (fun c topic => c.tell topic)
        ((attended id place opened heard).leave id ⟨code⟩)).ended = true :=
      (ended_foldl_tell _ _).trans rfl
    rw [run, hfold, Course.receive, hended]
    rfl

theorem serves_of_connect {opened : Registry} (hsound : r.Sound)
    (hconnect : r.connect id = .ok opened) : Serves opened id r.outboxes.length [] [] := by
  have hrun : (Call.connect id).run r = (.ok true, opened) := by rw [Call.run, hconnect]
  have hnone : r.standing? id = none :=
    Registry.answer_connect_iff.mp (congrArg Prod.fst hrun)
  obtain ⟨r', hrun', hstanding, houtboxes⟩ := Registry.run_connect_of_none hnone
  cases hrun.symm.trans hrun'
  refine ⟨?_, ?_, ?_⟩
  · have hnext := hsound.next (.call (.connect id))
    rw [Registry.next, hrun] at hnext
    exact hnext
  · have hnothing : {t | Subscribed t []} = ∅ :=
      Set.eq_empty_of_forall_notMem fun _ hasked => by cases hasked
    rw [hstanding, Function.update_self, hnothing]
  · rw [houtboxes, List.getElem?_concat_length]
    rfl

/-- What holds of the course of a session whose connect was accepted with its outbox at the
place. -/
structure Conducted (id : SessionId) (place : Nat) (opened : Registry) (heard : List Event)
    (code : Nat) (missed : List Event) (c : Course) : Prop where
  /-- The session is taken out of the registry once, between what it attends to and what
  others tell later, with the code of its end. -/
  removed_once : c = (missed.filterMap Event.topic?).foldl (fun c topic => c.tell topic)
    ((attended id place opened heard).leave id ⟨code⟩)
  /-- Until then it is registered, with the topics that it has asked for. -/
  registered : (attended id place opened heard).registry.standing? id =
    some ({t | Subscribed t heard}, place)
  queued : (attended id place opened heard).registry.outboxes[place]? =
    some ⟨queuedOver [] heard, true⟩
  /-- The replies are the answers to the messages before the end, in their order. -/
  replies : (queuedOver [] heard).filter (·.method ≠ .update) =
    (heard.filterMap Event.item?).filterMap Item.answer?
  /-- Nothing is queued for it after that. -/
  quiet : c.registry.outboxes[place]? =
    (attended id place opened heard).registry.outboxes[place]?
  gone : c.registry.standing? id = none
  others : ∀ other, other ≠ id → c.registry.standing? other = opened.standing? other
  /-- The log tells of the end once, with its code, and apart from that of nothing but sessions
  whose notices nobody takes. -/
  log : ∃ earlier later, c.notices = earlier ++ farewell id code ++ later ∧
    ∀ notice ∈ earlier ++ later, PassesOver notice
  ended : c.ended = true

/-- Whatever comes in and is told in between, a session queues one answer to each message
before its end and the notices it has asked for, it is removed once with the code of its
end, and nothing is queued for it any more. -/
theorem run_conducted {opened : Registry} (hsound : r.Sound)
    (hconnect : r.connect id = .ok opened) (events : List Event) :
    (∃ heard code missed, Parting events heard code missed) ∧
      ∀ heard code missed, Parting events heard code missed →
        Conducted id r.outboxes.length opened heard code missed
          (run id r.outboxes.length events opened) := by
  refine ⟨exists_parting events, fun heard code missed hparting => ?_⟩
  have hserves := serves_of_connect hsound hconnect
  have hrun := run_eq hserves hparting
  obtain ⟨-, hattends⟩ := attends_heard hserves hparting.lasts
  have hleft : ((attended id r.outboxes.length opened heard).leave id ⟨code⟩).registry.standing? =
      Function.update (attended id r.outboxes.length opened heard).registry.standing? id none :=
    Registry.standing?_disconnect _ id
  obtain ⟨hstanding, houtbox⟩ := foldl_tell
    (c := (attended id r.outboxes.length opened heard).leave id ⟨code⟩)
    (hattends.serves.sound.not_mem_places_disconnect hattends.serves.standing)
    (missed.filterMap Event.topic?)
  obtain ⟨later, hnotices, hlater⟩ := foldl_tell_notices (missed.filterMap Event.topic?)
    ((attended id r.outboxes.length opened heard).leave id ⟨code⟩)
  rw [← hrun] at hstanding houtbox hnotices
  refine ⟨hrun, hattends.serves.standing, hattends.serves.outbox, replies_queuedOver _ _, houtbox,
    ?_, ?_, ?_, ?_⟩
  · rw [hstanding, hleft, Function.update_self]
  · intro other hother
    rw [hstanding, hleft, Function.update_of_ne hother, hattends.others other hother]
  · refine ⟨(attended id r.outboxes.length opened heard).notices, later, ?_,
      fun notice hnotice => ?_⟩
    · rw [hnotices, ← notices_leave hattends.serves.standing code]
      rfl
    · rcases List.mem_append.mp hnotice with hnotice | hnotice
      · exact (hattends.notices notice hnotice).resolve_left List.not_mem_nil
      · exact hlater notice hnotice
  · rw [hrun]
    exact ended_foldl_tell _ _

/-- The client asks for a topic, which is told, and sends bytes that are no text, a ping and a
text that is no frame. -/
def messages : List Event :=
  [.received (.text "SUBSCRIBE\n\nt"), .changed "t", .received (.binary [255]), .received .ping,
    .received (.text "t")]

/-- Another frame and another notice come after the end. -/
def visit (ending : Item) : List Event :=
  messages ++ .received ending :: [.received (.text "DESUB\n\nt"), .changed "t"]

theorem lasts_messages : Lasts messages := by
  intro e he code hends
  obtain ⟨item, rfl, hitem⟩ := hends
  cases hitem <;> simp [messages] at he

/-- The visit may end with a close frame, with a code or without one, with a lost connection, or
when nothing more comes in. -/
theorem visit_conducted :
    let opened : Registry := ⟨[⟨"a", [], 0⟩], [.fresh]⟩
    let left (events : List Event) (lines : List Notice) : Prop :=
      let c := run "a" 0 events opened
      c.registry.outboxes[0]? = some ⟨[.ok, .update "t",
          .bad (String.ofList (Utf8.decodeLossy [255])), .bad "t"], true⟩ ∧
        c.registry.standing? "a" = none ∧ c.notices = lines
    Registry.empty.Sound ∧ Registry.empty.connect "a" = .ok opened ∧
      left (visit (.close (some 1000))) [] ∧
      left (visit (.close (some 4000)))
        [.warning "[Registry] Session a closed abnormally with status 4000"] ∧
      left (visit (.close none))
        [.warning "[Registry] Session a closed abnormally with status 1005"] ∧
      left (visit .lost) [.warning "[Registry] Session a closed abnormally with status 1006"] ∧
      left messages [.warning "[Registry] Session a closed abnormally with status 1006"] := by
  intro opened left
  have hsound : Registry.empty.Sound := Registry.sound_after []
  have hconnect : Registry.empty.connect "a" = .ok opened := rfl
  have hleft {events missed : List Event} {code : Nat} {lines : List Notice}
      (hparting : Parting events messages code missed)
      (hlines : ((missed.filterMap Event.topic?).foldl (fun c topic => c.tell topic)
        ((attended "a" 0 opened messages).leave "a" ⟨code⟩)).notices = lines) :
      left events lines := by
    have hconducted := (run_conducted hsound hconnect events).2 messages code missed hparting
    have hqueued : queuedOver [] messages = [.ok, .update "t",
        .bad (String.ofList (Utf8.decodeLossy [255])), .bad "t"] := rfl
    refine ⟨?_, hconducted.gone, (congrArg Course.notices hconducted.removed_once).trans hlines⟩
    rw [← hqueued]
    exact hconducted.quiet.trans hconducted.queued
  exact ⟨hsound, hconnect,
    hleft (.ended lasts_messages ⟨_, rfl, .closed 1000⟩) rfl,
    hleft (.ended lasts_messages ⟨_, rfl, .closed 4000⟩) rfl,
    hleft (.ended lasts_messages ⟨_, rfl, .closedWithoutCode⟩) rfl,
    hleft (.ended lasts_messages ⟨_, rfl, .lost⟩) rfl, hleft (.lost lasts_messages) rfl⟩

end Socket
end BotFleet
