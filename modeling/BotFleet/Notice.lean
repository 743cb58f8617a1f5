/-
Notices for the operator.

What goes wrong without stopping the service, or inside it, is written to the
log as a warning or an error.
-/

namespace BotFleet

inductive Severity where
  | warning
  | error
deriving DecidableEq, Repr

def Severity.label : Severity → String
  | .warning => "WARN"
  | .error => "ERROR"

structure Notice where
  severity : Severity
  text : String
deriving DecidableEq, Repr

namespace Notice

def warning (text : String) : Notice := ⟨.warning, text⟩
def error (text : String) : Notice := ⟨.error, text⟩

def line (n : Notice) : String := n.severity.label ++ " " ++ n.text

end Notice
end BotFleet
