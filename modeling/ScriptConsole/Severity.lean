import ScriptConsole.Method

/-!
# Severities

Log records and trace events have one of five severities. A threshold admits the
severities up to a bound, and each severity has the console method that shows it.
-/

namespace ScriptConsole

/-- How severe a record or an event is, from the most severe on. -/
inductive Severity where
  | error
  | warn
  | info
  | debug
  | trace
deriving DecidableEq, Repr

/-- The least severe thing that passes, or nothing at all. -/
inductive Threshold where
  | off
  | upTo (severity : Severity)
deriving DecidableEq, Repr

namespace Severity

/-- The place of the severity, the most severe first. -/
def rank : Severity -> Nat
  | .error => 1
  | .warn => 2
  | .info => 3
  | .debug => 4
  | .trace => 5

/-- The console method that shows a severity. Consoles do not tell traces from
debug output. -/
def method : Severity -> Method
  | .error => .error
  | .warn => .warn
  | .info => .info
  | .debug | .trace => .debug

end Severity

namespace Threshold

/-- The rank of the least severe thing that passes. -/
def rank : Threshold -> Nat
  | .off => 0
  | .upTo severity => severity.rank

/-- A severity passes. -/
def admits (threshold : Threshold) (severity : Severity) : Bool :=
  severity.rank ≤ threshold.rank

end Threshold

end ScriptConsole
