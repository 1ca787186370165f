import ScriptConsole.Bridge.Wiring
import ScriptConsole.LogEntry
import ScriptConsole.Session.Run
import ScriptConsole.World.Threads
import ScriptConsole.Proofs.Except
import ScriptConsole.Proofs.Session.Move
import ScriptConsole.Proofs.World.Link
import ScriptConsole.Proofs.World.Growth
import ScriptConsole.Proofs.Session.Named
import ScriptConsole.Proofs.Session.Binding
import ScriptConsole.Proofs.World.Closed
import ScriptConsole.Proofs.Session.Closed
import ScriptConsole.Proofs.Session.Chronicle
import ScriptConsole.Proofs.Session.Forwarding
import ScriptConsole.Proofs.Session.Handles
import ScriptConsole.Proofs.Session.Refinement
import ScriptConsole.Proofs.World.Reentrancy
import ScriptConsole.Proofs.Decimal.Value
import ScriptConsole.Proofs.Decimal.Shortest
import ScriptConsole.Proofs.Double.Value
import ScriptConsole.Proofs.Decimal.Fewest
import ScriptConsole.Proofs.Json.Numeral
import ScriptConsole.Proofs.Decimal.Positional
import ScriptConsole.Proofs.Json.Text
import ScriptConsole.Proofs.Json.Container
import ScriptConsole.Proofs.Json.RoundTrip
import ScriptConsole.Proofs.Argument.RoundTrip
import ScriptConsole.Proofs.Argument.Canonical
import ScriptConsole.Proofs.Argument.FloatText
import ScriptConsole.Proofs.MemoryLog.Window
import ScriptConsole.Proofs.Session.Logs
import ScriptConsole.Proofs.Session.Custody
import ScriptConsole.Proofs.Session.Message
import ScriptConsole.Proofs.Bridge.Setup
import ScriptConsole.Proofs.Session.Hosts
import ScriptConsole.Proofs.Bridge.Events
import ScriptConsole.Proofs.Severity
import ScriptConsole.Proofs.World.Traced
import ScriptConsole.Proofs.Bridge.Feedback
import ScriptConsole.Proofs.Bridge.Records
import ScriptConsole.Proofs.Trace.Message
import ScriptConsole.Proofs.Session.Tracing
import ScriptConsole.Proofs.Threads.Interleaving
import ScriptConsole.Proofs.Threads.History
import ScriptConsole.Proofs.Threads.Program
import ScriptConsole.Proofs.Threads.Delivery
import ScriptConsole.Proofs.Argument.Natural
import ScriptConsole.Proofs.Json.Equality
import ScriptConsole.Proofs.Argument.Equality
import ScriptConsole.Proofs.Json.Grammar
import ScriptConsole.Proofs.Json.Recognition
import ScriptConsole.Proofs.Json.Brackets
import ScriptConsole.Proofs.Json.Passing
import ScriptConsole.Proofs.Json.Record
import ScriptConsole.Proofs.Json.Fields
import ScriptConsole.Proofs.Config.Forms
import ScriptConsole.Proofs.Time.Calendar
import ScriptConsole.Proofs.Time.Grammar
import ScriptConsole.Proofs.Time.Parts
import ScriptConsole.Proofs.Time.Reading
import ScriptConsole.Proofs.Time.Civil
import ScriptConsole.Proofs.LogEntry.Forms
import ScriptConsole.Proofs.Method.Names
import ScriptConsole.Proofs.Argument.Join
