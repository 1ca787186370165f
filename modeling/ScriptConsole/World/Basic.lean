import ScriptConsole.Config
import ScriptConsole.MemoryLog
import ScriptConsole.Operations
import ScriptConsole.World.Table

/-!
# Worlds

A world holds environments, consoles, applications, their slots and their logs.
Everything that is shared is held once and referred to: all handles of a slot are
the same reference, and so are all handles of a log.
-/

namespace ScriptConsole

abbrev SlotRef := Ref .slot
abbrev LogRef := Ref .log
abbrev EchoRef := Ref .echo
abbrev ApplicationRef := Ref .application
abbrev ConsoleRef := Ref .console
abbrev EnvironmentRef := Ref .environment

/-- The error log of an application, which reports are delivered to. -/
inductive LogModel where
  /-- Keeps reports in memory. -/
  | memory (log : LogRef)
  /-- Emits every report as a trace event. -/
  | tracing
  /-- Keeps reports in memory, and on each of them binds the next application to a
  slot, or clears the slot if there is no next one. -/
  | rebinding (log : LogRef) (slot : SlotRef) (next : Option ApplicationRef)
  /-- Keeps reports in memory, and passes the first ones on to a console. -/
  | echoing (log : LogRef) (console : ConsoleRef) (echo : EchoRef)
deriving DecidableEq, Repr

/-- An application of the host. It may or may not have an error log. -/
structure Application where
  logs : Option LogModel := none
deriving DecidableEq, Repr, Inhabited

/-- A console. -/
inductive Console where
  /-- A console of the host, with the calls that nobody has asked for yet. -/
  | host (capabilities : Capabilities) (calls : List (Method × List Argument))
  /-- The stand-in for a missing console, which reports every call to the
  application in a slot. -/
  | fallback (slot : SlotRef) (config : Config)
deriving Repr

instance : Inhabited Console := ⟨.host .minimal []⟩

/-- A place that a console is bound in, and the slot of its application. -/
structure Environment where
  slot : SlotRef
  console : Option ConsoleRef := none
deriving DecidableEq, Repr

instance : Inhabited Environment := ⟨{ slot := ⟨0⟩ }⟩

/-- All objects. -/
structure World where
  slots : Table .slot (Option ApplicationRef) := {}
  logs : Table .log MemoryLog := {}
  /-- How many more reports each echoing model passes on. -/
  echoes : Table .echo Nat := {}
  applications : Table .application Application := {}
  consoles : Table .console Console := {}
  environments : Table .environment Environment := {}
deriving Repr

namespace World

/-- The application in a slot. -/
def application (world : World) (slot : SlotRef) : Option ApplicationRef :=
  world.slots.row slot

/-- The error log of the application in a slot, if there is an application and it
has one. -/
def logModel (world : World) (slot : SlotRef) : Option LogModel := do
  let application <- world.application slot
  (world.applications.row application).logs

/-- How many reports all echoing models together pass on. -/
def budget (world : World) : Nat :=
  world.echoes.total

/-- Bind an application to a slot. -/
def setApplication (world : World) (slot : SlotRef) (application : ApplicationRef) : World :=
  { world with slots := world.slots.put slot (some application) }

/-- Clear a slot. -/
def clearApplication (world : World) (slot : SlotRef) : World :=
  { world with slots := world.slots.put slot none }

/-- Take a report into a log. -/
def record (world : World) (log : LogRef) (report : Report) : World :=
  { world with logs := world.logs.modify log (·.record report) }

/-! ## New objects -/

def addSlot (world : World) : World × SlotRef :=
  ({ world with slots := world.slots.put world.slots.fresh none }, world.slots.fresh)

def addLog (world : World) (limit : Option Nat) : World × LogRef :=
  ({ world with logs := world.logs.put world.logs.fresh { limit } }, world.logs.fresh)

def addEcho (world : World) (times : Nat) : World × EchoRef :=
  ({ world with echoes := world.echoes.put world.echoes.fresh times }, world.echoes.fresh)

def addApplication (world : World) (application : Application) : World × ApplicationRef :=
  ({ world with
      applications := world.applications.put world.applications.fresh application },
    world.applications.fresh)

def addConsole (world : World) (console : Console) : World × ConsoleRef :=
  ({ world with consoles := world.consoles.put world.consoles.fresh console },
    world.consoles.fresh)

/-- A new environment with a slot of its own, and a console if the host has one. -/
def addEnvironment (world : World) (console : Option ConsoleRef) : World × EnvironmentRef :=
  let (world, slot) := world.addSlot
  ({ world with
      environments := world.environments.put world.environments.fresh { slot, console } },
    world.environments.fresh)

end World

end ScriptConsole
