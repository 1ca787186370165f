import ScriptConsole.Bridge.Basic
import ScriptConsole.Severity

/-!
# The bridge from log records

Log records reach a console as calls with the record's text as the only
argument, if the bridge's threshold admits their severity.
-/

namespace ScriptConsole

/-- A record of a logging program. -/
structure LogRecord where
  severity : Severity
  message : String
deriving DecidableEq, Repr

/-- A console that shows log records up to a threshold. -/
structure RecordBridge where
  console : ConsoleRef
  threshold : Threshold
deriving DecidableEq, Repr

namespace RecordBridge

/-- Records of this severity are shown. -/
def isEnabled (bridge : RecordBridge) (severity : Severity) : Bool :=
  bridge.threshold.admits severity

/-- The call that shows a record, if it is enabled. -/
def call? (bridge : RecordBridge) (record : LogRecord) : Option BridgeCall :=
  if bridge.isEnabled record.severity then
    some ⟨.records, bridge.console, record.severity.method, [.string record.message]⟩
  else none

end RecordBridge

/-- Show a record on the console of a bridge, if it is enabled there. -/
def World.showRecord (world : World) (bridge : RecordBridge) (record : LogRecord) :
    World × List Occurrence :=
  match bridge.call? record with
  | some call => world.make call
  | none => (world, [])

end ScriptConsole
