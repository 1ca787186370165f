import ScriptConsole.Severity

/-!
# The table of severities

Which method shows a severity, and which severities a threshold admits, written out. All
bridges go by this table.
-/

namespace ScriptConsole

/-- Every severity with the method that shows it. -/
def Severity.table : List (Severity × Method) :=
  [(.error, .error), (.warn, .warn), (.info, .info), (.debug, .debug), (.trace, .debug)]

/-- The severities that a threshold admits, the most severe first. -/
def Threshold.admitted : Threshold -> List Severity
  | .off => []
  | .upTo .error => [.error]
  | .upTo .warn => [.error, .warn]
  | .upTo .info => [.error, .warn, .info]
  | .upTo .debug => [.error, .warn, .info, .debug]
  | .upTo .trace => [.error, .warn, .info, .debug, .trace]

theorem Severity.method_eq_iff (severity : Severity) (method : Method) :
    severity.method = method ↔ (severity, method) ∈ Severity.table := by
  cases severity <;> cases method <;> decide

theorem Threshold.admits_iff (threshold : Threshold) (severity : Severity) :
    threshold.admits severity = true ↔ severity ∈ threshold.admitted := by
  cases threshold with
  | off => cases severity <;> decide
  | upTo bound => cases bound <;> cases severity <;> decide

end ScriptConsole
