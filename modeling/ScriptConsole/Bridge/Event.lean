import ScriptConsole.Bridge.Basic
import ScriptConsole.Trace.Span

/-!
# The bridge from trace events

Trace events reach a console as calls with the event's text as the only
argument, whatever their severity. The console may have an application that traces
its reports; then one event leads to another, on the same console.
-/

namespace ScriptConsole

/-- The call that shows an event inside spans, named from the outermost on. -/
def Trace.Event.call (event : Trace.Event) (console : ConsoleRef) (spans : List String) :
    BridgeCall :=
  ⟨.events, console, event.severity.method, [.string (event.text spans)]⟩

/-- Show an event inside spans on a console. -/
def World.showEvent (world : World) (console : ConsoleRef) (event : Trace.Event)
    (spans : List String) : World × List Occurrence :=
  world.make (event.call console spans)

/-- Show an event outside of all spans on the console of a subscriber, then the event that
is traced of it, and so on, with the calls for them in order. A call traces one event at
most, at its end. If nothing was spent before an event was traced, the console traces all
that it is shown, and so without end. Nothing changes any more then, and it is left at
that. -/
def World.showTraced (world : World) (console : ConsoleRef) (event : Trace.Event) :
    World × List BridgeCall :=
  let call := event.call console []
  let made := world.make call
  match (traced made.2).head? with
  | none => (made.1, [call])
  | some next =>
    if _spent : made.1.budget < world.budget then
      let (final, calls) := made.1.showTraced console next
      (final, call :: calls)
    else (made.1, [call])
termination_by world.budget

/-- What a traced program does, as far as a bridge sees it. -/
inductive TraceStep where
  | span (id name : String) (parent : Trace.Parent)
  | enter (id : String)
  | leave (id : String)
  | event (event : Trace.Event) (parent : Trace.Parent)

/-- A console that shows trace events, with the spans that they happen in. -/
structure EventBridge where
  console : ConsoleRef
  registry : Trace.Registry := {}
deriving DecidableEq, Repr

/-- One step of a traced program. -/
def World.follow (world : World) (bridge : EventBridge) :
    TraceStep -> World × EventBridge × List Occurrence
  | .span id name parent =>
    (world, { bridge with registry := bridge.registry.create id name parent }, [])
  | .enter id => (world, { bridge with registry := bridge.registry.enter id }, [])
  | .leave id => (world, { bridge with registry := bridge.registry.leave id }, [])
  | .event event parent =>
    let (world, occurrences) :=
      world.showEvent bridge.console event (bridge.registry.path parent)
    (world, bridge, occurrences)

end ScriptConsole
