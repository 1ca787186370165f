import ScriptConsole.Trace.Event
import ScriptConsole.World.Basic

/-!
# Occurrences

What happens in a world, in order. Two kinds of occurrences are also traced: the
installation of a fallback console, and a report to a model that traces. Both
become trace events here and nowhere else. Whoever listens on one thread does not
hear what is traced on another.
-/

namespace ScriptConsole

/-- What became of an attempt to install a fallback console. -/
inductive Installation where
  /-- The fallback console is in place now. -/
  | installed
  /-- There was a console already, and it was left in place. -/
  | existing
deriving DecidableEq, Repr

/-- One thing that happens in a world. -/
inductive Occurrence where
  /-- A call reaches a console. -/
  | called (console : ConsoleRef) (method : Method) (text : String)
  /-- A report reaches the error log of an application. -/
  | delivered (model : LogModel) (report : Report)
  /-- An application is bound to a slot and the previous one handed back. -/
  | bound (slot : SlotRef) (application : ApplicationRef) (previous : Option ApplicationRef)
  /-- A slot is cleared and its application handed back. -/
  | unbound (slot : SlotRef) (previous : Option ApplicationRef)
  /-- A fallback console is offered to an environment. -/
  | offered (environment : EnvironmentRef) (outcome : Installation)
  /-- A fallback console is offered to an environment on a thread of its own, where it
  is traced apart from everything else. -/
  | offeredElsewhere (environment : EnvironmentRef) (outcome : Installation)
deriving DecidableEq, Repr

/-- The debug message about an installation. -/
def Installation.message : Installation -> String
  | .installed => "installed console shim"
  | .existing => "console already present, leaving it in place"

/-- The trace event of a report: an error with the source as a field. -/
def Report.event (report : Report) : Trace.Event where
  severity := .error
  fields := [⟨Trace.messageName, .shown report.message⟩, ⟨"source", .text report.source⟩]

/-- The trace event that goes with an occurrence, if it is traced on the thread that is
listened to. -/
def Occurrence.traced? : Occurrence -> Option Trace.Event
  | .delivered .tracing report => some report.event
  | .offered _ outcome => some (.ofMessage .debug outcome.message)
  | _ => none

/-- The trace events of some occurrences. -/
def traced (occurrences : List Occurrence) : List Trace.Event :=
  occurrences.filterMap Occurrence.traced?

end ScriptConsole
