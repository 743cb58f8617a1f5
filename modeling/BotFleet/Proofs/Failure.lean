import BotFleet.Proofs.Service.Run

/-
What an answer tells about a failure, and what the log tells.

A failure that wraps the error of another part is told to the log in full, behind a title
that says which part it was.  `texts` lists what the wrapped error holds, a path or the
words of another program, and each of these can be read in the line.  Where it is the
service's own fault the answer holds nothing of it, so two such failures cannot be told
apart from outside.  Whether there is a line in the log at all depends on the status of the
answer alone.

The theorem this file exists for is `internal_failures_answer_alike`.
-/

namespace BotFleet

/-! ## What errors hold -/

/-- The texts that an error of the configuration holds. -/
def Config.Fault.texts : Config.Fault → List String
  | .invalidUrl url => [url]
  | .invalidValue key message => [key, message]
  | .missingValue key => [key]
  | .unparsable detail => [detail]
  | .unreadable path detail => [path, detail]

/-- The texts that an error of a password holds, its numbers in digits. -/
def Password.Fault.texts : Password.Fault → List String
  | .costNotAllowed cost => [toString cost.val]
  | .invalidHash text | .invalidPrefix text | .invalidCost text => [text]
  | .invalidLetters detail | .randomness detail | .io detail => [detail]
  | .invalidSalt length | .truncated length => [toString length]

theorem infix_before (text after : String) : text.toList <:+: (text ++ after).toList :=
  ⟨[], after.toList, by simp only [String.toList_append, List.nil_append]⟩

theorem infix_after (before text : String) : text.toList <:+: (before ++ text).toList :=
  ⟨before.toList, [], by simp only [String.toList_append, List.append_nil]⟩

/-- An error of the configuration tells all it holds. -/
theorem Config.Fault.infix_message {fault : Config.Fault} {text : String}
    (h : text ∈ fault.texts) : text.toList <:+: fault.message.toList := by
  have hpair {a b : String} (h : text ∈ [a, b]) : text = a ∨ text = b := by simpa using h
  cases fault with
  | invalidValue key message =>
    rcases hpair h with rfl | rfl
    · exact ((infix_after _ _).trans (infix_before _ _)).trans (infix_before _ _)
    · exact infix_after _ _
  | unreadable path detail =>
    rcases hpair h with rfl | rfl
    · exact ((infix_after _ _).trans (infix_before _ _)).trans (infix_before _ _)
    · exact infix_after _ _
  | _ =>
    cases List.mem_singleton.mp h
    exact infix_after _ _

/-- An error of a password tells all it holds. -/
theorem Password.Fault.infix_message {fault : Password.Fault} {text : String}
    (h : text ∈ fault.texts) : text.toList <:+: fault.message.toList := by
  cases fault with
  | truncated length =>
    cases List.mem_singleton.mp h
    exact (infix_after _ _).trans (infix_before _ _)
  | _ =>
    cases List.mem_singleton.mp h
    exact infix_after _ _

namespace Failure

/-! ## Wrapped errors -/

/-- The parts whose errors a failure can wrap. -/
inductive Origin where
  /-- Checks and formats that clients share. -/
  | shared
  | store
  | migration
  | config
  | password
  | token
deriving DecidableEq, Repr

def origin? : Failure → Option Origin
  | .invalid _ => some .shared
  | .undecodable _ => some .shared
  | .unserializable _ => some .shared
  | .store _ => some .store
  | .migration _ => some .migration
  | .config _ => some .config
  | .password _ => some .password
  | .token _ => some .token
  | _ => none

/-- What the log puts in front of an internal error of a part. -/
def Origin.title : Origin → String
  | .shared => "Serialization error: "
  | .store => "Database error: "
  | .migration => "Migration error: "
  | .config => ""
  | .password => "Password error: "
  | .token => "Token error: "

/-- What a wrapped error says about itself. -/
def detail : Failure → String
  | .unserializable message => message
  | .store fault => fault.detail
  | .migration detail => detail
  | .config fault => fault.message
  | .password fault => fault.message
  | f => f.message

/-- The texts that the wrapped error holds. -/
def texts : Failure → List String
  | .unserializable message => [message]
  | .store (.broken detail) => [detail]
  | .migration detail => [detail]
  | .config fault => fault.texts
  | .password fault => fault.texts
  | .token detail => [detail]
  | _ => []

/-- The failure wraps an error of the part and is the service's own fault. -/
structure Internal (origin : Origin) (f : Failure) : Prop where
  wrapped : f.origin? = some origin
  status : f.status = 500

/-! ## Answers -/

/-- The answer to an internal failure does not depend on the failure. -/
theorem Internal.message {origin : Origin} {f : Failure} (h : f.Internal origin)
    (hshared : origin ≠ .shared) : f.message = internalError := by
  obtain ⟨hwrapped, hstatus⟩ := h
  cases f with
  | invalid | undecodable | unserializable =>
    exact absurd (Option.some.inj hwrapped).symm hshared
  | store fault =>
    cases fault with
    | broken => rfl
    | _ => cases hstatus
  | migration | config | password => rfl
  | token => cases hstatus
  | _ => cases hwrapped

/-! ## The log -/

theorem Internal.display {origin : Origin} {f : Failure} (h : f.Internal origin) :
    f.display = origin.title ++ f.detail := by
  obtain ⟨hwrapped, hstatus⟩ := h
  cases f with
  | token | invalid | undecodable => cases hstatus
  | unserializable | store | migration | config | password =>
    cases hwrapped
    rfl
  | _ => cases hwrapped

/-- The detail has all that the wrapped error holds. -/
theorem Internal.infix_detail {origin : Origin} {f : Failure} (h : f.Internal origin)
    {text : String} (htext : text ∈ f.texts) : text.toList <:+: f.detail.toList := by
  obtain ⟨-, hstatus⟩ := h
  have hwhole {detail : String} (h : text ∈ [detail]) : text.toList <:+: detail.toList := by
    obtain rfl := List.mem_singleton.mp h
    exact List.infix_refl _
  cases f with
  | unserializable message => exact hwhole htext
  | migration detail => exact hwhole htext
  | store fault =>
    cases fault with
    | broken detail => exact hwhole htext
    | _ => cases hstatus
  | config fault => exact Config.Fault.infix_message htext
  | password fault => exact Password.Fault.infix_message htext
  | token => cases hstatus
  | _ => cases htext

/-- There is one line about an internal failure, with its detail between words that only the
part decides. -/
theorem Internal.notices {origin : Origin} {f : Failure} (h : f.Internal origin) :
    f.notices =
      [.error ("[Http] " ++ (origin.title ++ f.detail) ++ " (500 Internal Server Error)")] := by
  have hclosing : " (" ++ (toString 500 ++ (" " ++ (reason 500 ++ ")"))) =
      " (500 Internal Server Error)" := by decide
  have hline : f.notices =
      [.error ("[Http] " ++ f.display ++ " (" ++ toString 500 ++ " " ++ reason 500 ++ ")")] := by
    rw [Failure.notices, h.status]
    rfl
  rw [hline, h.display, ← hclosing]
  simp only [String.append_assoc]

/-- There is a line about a failure if its answer is of the class for failures of servers. -/
theorem exists_error_iff (f : Failure) :
    (∃ line, Notice.error line ∈ f.notices) ↔ 500 ≤ f.status ∧ f.status ≤ 599 := by
  have hclass : isServerError f.status = true ↔ 500 ≤ f.status ∧ f.status ≤ 599 := by
    simp [isServerError]
  rw [← hclass, Failure.notices]
  by_cases h : isServerError f.status = true
  · rw [if_pos h]
    exact iff_of_true ⟨_, List.mem_singleton_self _⟩ h
  · rw [if_neg h]
    exact iff_of_false (fun ⟨_, hmem⟩ => nomatch hmem) h

end Failure

namespace Service

open Failure (Origin)
open Http (Response)

/-- Two internal failures that wrap errors of one part are answered alike, unless it is the part
that clients share, and the log has one line about each with its own detail in it and with every
text that the wrapped error holds.  The status in the body of an answer is that of the answer, and
there is a line of error in the log if it is from 500 to 599. -/
theorem internal_failures_answer_alike (s : State) :
    (∀ (origin : Origin) (f g : Failure), origin ≠ .shared → f.Internal origin →
        g.Internal origin → (s.fail f).response = (s.fail g).response) ∧
      (∀ (origin : Origin) (f g : Failure), f.Internal origin → g.Internal origin →
        (∃ line, (s.fail f).notices = [.error line] ∧ f.detail.toList <:+: line.toList ∧
            ∀ text ∈ f.texts, text.toList <:+: line.toList) ∧
          ((s.fail f).notices = (s.fail g).notices ↔ f.detail = g.detail)) ∧
      ∀ f : Failure,
        (∃ body, (s.fail f).response.content = .json body ∧
          body.field? "status" = some (.int (s.fail f).response.status)) ∧
        ((∃ line, Notice.error line ∈ (s.fail f).notices) ↔
          500 ≤ (s.fail f).response.status ∧ (s.fail f).response.status ≤ 599) := by
  refine ⟨?_, ?_, fun f => ⟨⟨f.body, rfl, rfl⟩, f.exists_error_iff⟩⟩
  · intro origin f g hshared hf hg
    show Response.of f.status (.json f.body) = Response.of g.status (.json g.body)
    rw [Failure.body, Failure.body, hf.message hshared, hg.message hshared, hf.status, hg.status]
  · intro origin f g hf hg
    have hline : f.detail.toList <:+: ("[Http] " ++ (origin.title ++ f.detail) ++
        " (500 Internal Server Error)").toList :=
      ((infix_after _ _).trans (infix_after _ _)).trans (infix_before _ _)
    refine ⟨⟨_, hf.notices, hline, fun text htext => (hf.infix_detail htext).trans hline⟩, ?_⟩
    show f.notices = g.notices ↔ _
    rw [hf.notices, hg.notices]
    simp [Notice.error]

/-- The failures are internal ones of the part, and only the log tells them apart. -/
def OnlyLogTells (s : State) (origin : Origin) (f g : Failure) : Prop :=
  f.Internal origin ∧ g.Internal origin ∧ (s.fail f).response = (s.fail g).response ∧
    (s.fail f).notices ≠ (s.fail g).notices

/-- Only the log tells a full disk from a locked file, a file that cannot be read from one that
cannot be parsed, and a hash that is none from a cost that is too low.  The line about the file
that cannot be read has its path and the reason. -/
theorem broken_parts_answer_alike :
    let s := State.first .refused
    let unread : Failure := .config (.unreadable "/etc/fleet.toml" "Permission denied")
    OnlyLogTells s .store (.store (.broken "database or disk is full"))
        (.store (.broken "database is locked")) ∧
      OnlyLogTells s .config unread (.config (.unparsable "invalid key at line 3")) ∧
      OnlyLogTells s .password (.password (.invalidHash "plain"))
        (.password (.costNotAllowed ⟨3, by decide⟩)) ∧
      ∃ line, (s.fail unread).notices = [.error line] ∧
        "/etc/fleet.toml".toList <:+: line.toList ∧
          "Permission denied".toList <:+: line.toList := by
  intro s unread
  obtain ⟨hresponse, hnotices, -⟩ := internal_failures_answer_alike s
  have hunread : unread.Internal .config := ⟨rfl, rfl⟩
  have htells : ∀ (origin : Origin) (f g : Failure), origin ≠ .shared → f.Internal origin →
      g.Internal origin → f.detail ≠ g.detail → OnlyLogTells s origin f g :=
    fun origin f g hshared hf hg hdetail =>
      ⟨hf, hg, hresponse origin f g hshared hf hg,
        fun h => hdetail ((hnotices origin f g hf hg).2.mp h)⟩
  refine ⟨htells _ _ _ (by decide) ⟨rfl, rfl⟩ ⟨rfl, rfl⟩ (by decide),
    htells _ _ _ (by decide) hunread ⟨rfl, rfl⟩ (by decide),
    htells _ _ _ (by decide) ⟨rfl, rfl⟩ ⟨rfl, rfl⟩ (by decide), ?_⟩
  obtain ⟨line, hline, -, htexts⟩ := (hnotices .config unread unread hunread hunread).1
  exact ⟨line, hline, htexts _ (.head _), htexts _ (.tail _ (.head _))⟩

/-- Two texts that could not be written are told apart by their answers, and there is a status
beyond 500 that is answered without a line in the log. -/
theorem unserializable_texts_answer_apart :
    let s := State.first .refused
    let f : Failure := .unserializable "JSON error: bad"
    let g : Failure := .unserializable "JSON error: worse"
    let beyond : Failure := .custom 600 "Custom 600"
    (f.Internal .shared ∧ g.Internal .shared ∧ (s.fail f).response ≠ (s.fail g).response) ∧
      500 ≤ (s.fail beyond).response.status ∧
        ¬∃ line, Notice.error line ∈ (s.fail beyond).notices := by
  intro s f g beyond
  have hanswers : (s.fail f).response ≠ (s.fail g).response := by
    intro h
    have hbody : f.body = g.body := Http.Content.json.inj (congrArg Response.content h)
    have hmessage : f.message = g.message := by
      have hfields := Json.record.inj hbody
      exact Json.text.inj (Prod.mk.inj (List.cons.inj hfields).1).2
    exact absurd hmessage (by decide)
  refine ⟨⟨⟨rfl, rfl⟩, ⟨rfl, rfl⟩, hanswers⟩, by decide, ?_⟩
  rintro ⟨line, hline⟩
  cases hline

end Service
end BotFleet
