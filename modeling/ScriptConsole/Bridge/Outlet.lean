import ScriptConsole.World.Environment

/-!
# Outlets

An outlet is a console at the end of a bridge whose calls can be read back: a
host console, or the fallback console of an environment of its own, whose
application keeps the reports in memory.
-/

namespace ScriptConsole

/-- The kinds of consoles that a bridge can end in. -/
inductive OutletKind where
  | host (capabilities : Capabilities)
  | fallback
deriving DecidableEq, Repr

/-- A console whose calls can be read back. -/
inductive Outlet where
  | host (console : ConsoleRef)
  /-- A fallback console, with the log that its reports end in. -/
  | fallback (console : ConsoleRef) (log : LogRef)
deriving DecidableEq, Repr

/-- The console of an outlet. -/
def Outlet.console : Outlet -> ConsoleRef
  | .host console => console
  | .fallback console _ => console

namespace World

/-- Make an outlet. A fallback console is installed, which is traced. -/
def openOutlet (world : World) : OutletKind -> World × Outlet × List Occurrence
  | .host capabilities =>
    let (world, console) := world.addConsole (.host capabilities [])
    (world, .host console, [])
  | .fallback =>
    let (world, log) := world.addLog none
    let (world, application) := world.addApplication { logs := some (.memory log) }
    let (world, environment) := world.addEnvironment none
    let slot := world.environmentSlot environment
    let previous := world.application slot
    let world := world.setApplication slot application
    let (world, console, outcome) := world.install environment .default
    (world, .fallback console log,
      [.bound slot application previous, .offered environment outcome])

/-- The calls that reached an outlet since they were last read: the method of a
call to a host console, and the source of a report, each with its text. -/
def drain (world : World) : Outlet -> World × List (String × String)
  | .host console =>
    let (world, calls) := world.takeCalls console
    (world, calls.map fun (method, text) => (method.name, text))
  | .fallback _ log =>
    let reports := (world.logs.row log).entries
    ({ world with logs := world.logs.modify log MemoryLog.clear },
      reports.map fun report => (report.source, report.message))

end World

end ScriptConsole
