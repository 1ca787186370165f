import ScriptConsole.Bridge.Event
import ScriptConsole.Bridge.Outlet
import ScriptConsole.Bridge.Record

/-!
# The wiring of a process

A process has one logger, one most verbose threshold and one subscriber for
trace events. Logger and subscriber are set at most once; the threshold changes
only together with the logger. What the calls of either bridge trace comes back to the
subscriber.
-/

namespace ScriptConsole

/-- The bridges of a process and the outlets that they end in. -/
structure Wiring where
  world : World := {}
  /-- The outlets by name, the last made first. -/
  outlets : List (String × Outlet) := []
  logger : Option RecordBridge := none
  threshold : Threshold := .off
  subscriber : Option ConsoleRef := none

namespace Wiring

/-- Make a console the logger of the process, unless there is one. -/
def setLogger (wiring : Wiring) (console : ConsoleRef) (threshold : Threshold) :
    Except SetupError Wiring :=
  match wiring.logger with
  | some _ => .error .loggerAlreadySet
  | none => .ok { wiring with logger := some { console, threshold }, threshold }

/-- Make a console the subscriber of the process, unless there is one. -/
def setSubscriber (wiring : Wiring) (console : ConsoleRef) : Except SetupError Wiring :=
  match wiring.subscriber with
  | some _ => .error .subscriberAlreadySet
  | none => .ok { wiring with subscriber := some console }

/-- What comes of an attempt to set something up: the process is left as it was
if the attempt fails. -/
def attempt (wiring : Wiring) (result : Except SetupError Wiring) :
    Wiring × Except SetupError Unit :=
  match result with
  | .ok wiring => (wiring, .ok ())
  | .error error => (wiring, .error error)

/-- Make a console both. A logger that was set stays set if there is a subscriber
already. -/
def setBoth (wiring : Wiring) (console : ConsoleRef) (threshold : Threshold) :
    Wiring × Except SetupError Unit :=
  match wiring.setLogger console threshold with
  | .error error => (wiring, .error error)
  | .ok wiring => wiring.attempt (wiring.setSubscriber console)

/-- Emit a trace event outside of all spans. The subscriber gets it, and whatever is traced
of it in its turn. The calls are those that the bridges make. -/
def emit (wiring : Wiring) (event : Trace.Event) : Wiring × List BridgeCall :=
  match wiring.subscriber with
  | none => (wiring, [])
  | some console =>
    let (world, calls) := wiring.world.showTraced console event
    ({ wiring with world }, calls)

/-- Emit some trace events one after the other. -/
def emitAll (wiring : Wiring) : List Trace.Event -> Wiring × List BridgeCall
  | [] => (wiring, [])
  | event :: rest =>
    let (wiring, first) := wiring.emit event
    let (wiring, more) := wiring.emitAll rest
    (wiring, first ++ more)

/-- Log a record: it passes the threshold of the process and then that of its logger. What
is traced of the call that shows it, the subscriber gets. -/
def log (wiring : Wiring) (record : LogRecord) : Wiring × List BridgeCall :=
  match wiring.logger with
  | none => (wiring, [])
  | some logger =>
    if wiring.threshold.admits record.severity then
      match logger.call? record with
      | none => (wiring, [])
      | some call =>
        let (world, occurrences) := wiring.world.make call
        let (wiring, more) := { wiring with world }.emitAll (traced occurrences)
        (wiring, call :: more)
    else (wiring, [])

/-- Make a named outlet. The subscriber gets what is traced of it. -/
def openOutlet (wiring : Wiring) (id : String) (kind : OutletKind) : Wiring × ConsoleRef :=
  let (world, outlet, occurrences) := wiring.world.openOutlet kind
  let opened := { wiring with world, outlets := (id, outlet) :: wiring.outlets }
  ((opened.emitAll (traced occurrences)).1, outlet.console)

/-- Something that a process does with its bridges. -/
inductive Step where
  | initLog (id : String) (kind : OutletKind) (threshold : Threshold)
  | initTrace (id : String) (kind : OutletKind)
  | initBoth (id : String) (kind : OutletKind) (threshold : Threshold)
  | log (record : LogRecord)
  | emit (event : Trace.Event)

/-- Do a step. -/
def step (wiring : Wiring) : Step -> Wiring × Except SetupError Unit
  | .initLog id kind threshold =>
    let (wiring, console) := wiring.openOutlet id kind
    wiring.attempt (wiring.setLogger console threshold)
  | .initTrace id kind =>
    let (wiring, console) := wiring.openOutlet id kind
    wiring.attempt (wiring.setSubscriber console)
  | .initBoth id kind threshold =>
    let (wiring, console) := wiring.openOutlet id kind
    wiring.setBoth console threshold
  | .log record => ((wiring.log record).1, .ok ())
  | .emit event => ((wiring.emit event).1, .ok ())

/-- Read the calls that reached each of some outlets since they were last read. -/
def drainOutlets (world : World) :
    List (String × Outlet) -> World × List (String × List (String × String))
  | [] => (world, [])
  | (id, outlet) :: rest =>
    let (world, calls) := world.drain outlet
    let (world, others) := drainOutlets world rest
    (world, (id, calls) :: others)

/-- Read the calls that reached the outlets since they were last read. -/
def takeCalls (wiring : Wiring) : Wiring × List (String × List (String × String)) :=
  let (world, calls) := drainOutlets wiring.world wiring.outlets
  ({ wiring with world }, calls)

end Wiring

end ScriptConsole
