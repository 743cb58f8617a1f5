import BotFleet.Proofs.Config.Url
import BotFleet.Proofs.Daemon.Autostart
import BotFleet.Proofs.Service.Steering

/-
Where the daemon is asked for something.

The service is given the base of the daemon's addresses when it starts, and nothing alters it
afterwards.  Whatever is sent goes to the base with one of two paths after it.  Whether the
base is a URL is a question to the configuration: it is one unless the URL in it names
nothing.

The theorem this file exists for is `daemon_addressed`.
-/

namespace BotFleet

namespace Daemon

/-- What came after the first link are commands, sent to their paths below its base. -/
structure Link.Extends (l l' : Link) : Prop where
  base : l'.base = l.base
  sent : ∃ sent, l'.exchanges = l.exchanges ++ sent ∧
    ∀ e ∈ sent, ∃ command : Command, e = ⟨l.base ++ command.order.path, command.request⟩

namespace Link

variable {l l' l'' : Link}

/-- Nothing has been sent in between. -/
theorem Extends.of_eq (hbase : l'.base = l.base) (h : l'.exchanges = l.exchanges) :
    l.Extends l' :=
  ⟨hbase, [], h.trans (List.append_nil _).symm, nofun⟩

theorem Extends.trans (h : l.Extends l') (h' : l'.Extends l'') : l.Extends l'' := by
  obtain ⟨sent, hsent, hcommands⟩ := h.sent
  obtain ⟨sent', hsent', hcommands'⟩ := h'.sent
  refine ⟨h'.base.trans h.base, sent ++ sent', ?_, fun e he => ?_⟩
  · rw [hsent', hsent, List.append_assoc]
  · rcases List.mem_append.mp he with he | he
    · exact hcommands e he
    · rw [← h.base]
      exact hcommands' e he

theorem extends_record (l : Link) (command : Command) :
    l.Extends (l.record command.order.path command.request) := by
  rw [record_eq]
  refine ⟨rfl, _, rfl, fun e he => ?_⟩
  by_cases harrives : l.next.arrives = true
  · rw [if_pos harrives] at he
    exact ⟨command, List.mem_singleton.mp he⟩
  · rw [if_neg harrives] at he
    cases he

end Link

namespace Control

theorem extends_next (c : Control) (step : Step) : c.link.Extends (c.next step).link := by
  cases step with
  | command command =>
    by_cases hidle : command.Idle c
    · rw [next, Command.run_of_idle hidle]
      exact .of_eq rfl rfl
    · rw [next, (Command.run_of_not_idle hidle).1]
      exact Link.extends_record _ command
  | replies pending otherwise => exact .of_eq rfl rfl

theorem extends_after (c : Control) (steps : List Step) : c.link.Extends (c.after steps).link := by
  induction steps generalizing c with
  | nil => exact .of_eq rfl rfl
  | cons step rest ih => exact (c.extends_next step).trans (ih (c.next step))

/-- A command that has something to do reaches the daemon at its address. -/
theorem exchanges_of_arrives {c : Control} {command : Command} (hidle : ¬command.Idle c)
    (h : c.link.next.arrives = true) :
    (command.run c).2.link.exchanges =
      c.link.exchanges ++ [⟨c.link.base ++ command.order.path, command.request⟩] := by
  rw [(Command.run_of_not_idle hidle).1, Link.record_eq, if_pos h]

end Control
end Daemon

namespace Service
namespace State

open Daemon (Command)

variable {d : Setup}

/-- The base is what is configured without the slashes at its end, and stays as it is if it is
cut down once more.  It is a URL exactly if something other than a slash follows the scheme in
the configuration.  From the start of the service on, all that is sent to the daemon goes to
the base with the path of a command after it, and every command that reaches the daemon is
sent there. -/
theorem daemon_addressed (hvalid : Config.validate d.config = .ok ()) :
    let base := d.config.daemonBase
    base.toList.getLast? ≠ some '/' ∧
      (∃ slashes, d.config.daemonUrl.toList = base.toList ++ slashes ∧
        ∀ x ∈ slashes, x = '/') ∧
      { d.config with daemonUrl := base }.daemonBase = base ∧
      (Config.isHttpUrl base = true ↔ ¬Config.Hollow d.config.daemonUrl) ∧
      ∀ (m : Moment) (draws : List Nat) (found : Store.Location → Except Store.Fault Store)
        (link : Daemon.Link) (s : State) (events : List Event),
        (Startup.run (d.context m) draws found link).state = .ok s →
          let control := (s.after d events).fleet.control
          (∃ sent, control.link.exchanges = link.exchanges ++ sent ∧
            ∀ e ∈ sent, ∃ command : Command, e = ⟨base ++ command.order.path, command.request⟩) ∧
          ∀ command : Command, ¬command.Idle control → control.link.next.arrives = true →
            (command.run control).2.link.exchanges =
              control.link.exchanges ++ [⟨base ++ command.order.path, command.request⟩] := by
  intro base
  refine ⟨Config.getLast?_daemonBase_ne _, Config.exists_slashes _,
    Config.daemonBase_daemonBase _,
    Config.isHttpUrl_daemonBase_iff (Config.urls_of_validate hvalid).1, ?_⟩
  intro m draws found link s events hstart control
  have hextends : Daemon.Link.Extends { link with base } control.link := by
    show Daemon.Link.Extends _ (s.after d events).fleet.control.link
    rw [after_control, control_of_run hstart, ← Daemon.Control.after_append]
    exact Daemon.Control.extends_after ⟨[], { link with base }⟩ _
  refine ⟨hextends.sent, fun command hidle harrives => ?_⟩
  rw [Daemon.Control.exchanges_of_arrives hidle harrives, hextends.base]

/-- Without any settings, the radio is started at the base that is built in. -/
theorem radio_addressed :
    Config.validate Setup.plain.config = .ok () ∧
      Config.isHttpUrl Setup.plain.config.daemonBase = true ∧
      ¬Config.Hollow Setup.plain.config.daemonUrl ∧
      ((Command.start ⟨Table.firstId, radio⟩).run
          (first (.answered 200 "")).fleet.control).2.link.exchanges =
        [⟨"http://127.0.0.1:1337" ++ "/instance/start",
          (Command.start ⟨Table.firstId, radio⟩).request⟩] := by
  have hvalid : Config.validate Setup.plain.config = .ok () := by rfl
  have hbase : Setup.plain.config.daemonBase = "http://127.0.0.1:1337" := by rfl
  have hurl : Config.isHttpUrl Setup.plain.config.daemonBase = true := by
    rw [hbase]
    decide
  obtain ⟨-, -, -, hiff, hrun⟩ := daemon_addressed (d := .plain) hvalid
  obtain ⟨-, hreaches⟩ := hrun _ _ _ _ _ [] (run_first (.answered 200 ""))
  refine ⟨hvalid, hurl, hiff.mp hurl, ?_⟩
  rw [hbase] at hreaches
  exact hreaches (.start ⟨Table.firstId, radio⟩) Bool.false_ne_true rfl

/-- A configuration that is accepted may leave a base that is no URL. -/
theorem not_always_url :
    ¬∀ c : Config, Config.validate c = .ok () → Config.isHttpUrl c.daemonBase = true := by
  intro h
  have hvalid : Config.validate { Config.default with daemonUrl := "http:///" } = .ok () := by rfl
  exact absurd (h _ hvalid) (by decide)

end State
end Service
end BotFleet
