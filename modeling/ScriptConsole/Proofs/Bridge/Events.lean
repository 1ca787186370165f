import ScriptConsole.Bridge.Event
import ScriptConsole.Proofs.Trace.Spans
import ScriptConsole.Proofs.Trace.Text
import ScriptConsole.Proofs.World.Host

/-!
# Trace events on a console

A bridge makes one call for every event, in order, and no other call. What a traced program
does to its spans decides only which names an event is put after. So following the program
is the same as calling the console with one line for each event: `follow_eq`, and for a
whole program `followAll_eq`.
-/

namespace ScriptConsole

namespace TraceStep

/-- The spans after a step. -/
def advance (registry : Trace.Registry) : TraceStep -> Trace.Registry
  | .span id name parent => registry.create id name parent
  | .enter id => registry.enter id
  | .leave id => registry.leave id
  | .event _ _ => registry

/-- The event of a step, if it is one. -/
def event? : TraceStep -> Option Trace.Event
  | .event told _ => some told
  | _ => none

/-- The event of a step, with the names of the spans around it. -/
def shown? (registry : Trace.Registry) : TraceStep -> Option (Trace.Event × List String)
  | .event told parent => some (told, registry.path parent)
  | _ => none

/-- The events of some steps in their order, each with the names of the spans that are
around it when it happens, from the outermost on. -/
def events (registry : Trace.Registry) : List TraceStep -> List (Trace.Event × List String)
  | [] => []
  | step :: rest => (step.shown? registry).toList ++ events (step.advance registry) rest

/-- The call that an event should make inside spans of these names. -/
def lineOf (shown : Trace.Event × List String) : Method × String :=
  (shown.1.severity.method, shown.1.line shown.2)

/-- The calls that the events of some steps should make, in order. -/
def lines (registry : Trace.Registry) (steps : List TraceStep) : List (Method × String) :=
  (events registry steps).map lineOf

theorem events_map_fst (registry : Trace.Registry) (steps : List TraceStep) :
    (events registry steps).map Prod.fst = steps.filterMap event? := by
  induction steps generalizing registry with
  | nil => rfl
  | cons step rest ih =>
    rw [events, List.map_append, ih, List.filterMap_cons]
    cases step <;> rfl

end TraceStep

namespace World

/-- Call a console once for each line, with the line as the only argument. -/
def callAll (world : World) (console : ConsoleRef) :
    List (Method × String) -> World × List Occurrence
  | [] => (world, [])
  | (method, line) :: rest =>
    let (world, first) := world.call console method [.string line]
    let (world, more) := world.callAll console rest
    (world, first ++ more)

/-- Follow a traced program through some steps. -/
def followAll (world : World) (bridge : EventBridge) :
    List TraceStep -> World × EventBridge × List Occurrence
  | [] => (world, bridge, [])
  | step :: rest =>
    let (world, bridge, first) := world.follow bridge step
    let (world, bridge, more) := world.followAll bridge rest
    (world, bridge, first ++ more)

variable {world : World} {bridge : EventBridge} {console : ConsoleRef}

theorem callAll_singleton (world : World) (console : ConsoleRef) (line : Method × String) :
    world.callAll console [line] = world.call console line.1 [.string line.2] := by
  simp only [callAll, List.append_nil]

theorem callAll_append (world : World) (console : ConsoleRef)
    (first second : List (Method × String)) :
    world.callAll console (first ++ second) =
      let (middle, before) := world.callAll console first
      let (final, after) := middle.callAll console second
      (final, before ++ after) := by
  induction first generalizing world with
  | nil => rfl
  | cons line rest ih =>
    obtain ⟨method, text⟩ := line
    simp only [List.cons_append, callAll, ih, List.append_assoc]

/-- A step of a traced program makes the call of its event, if it is one, and moves the
spans on. -/
theorem follow_eq {step : TraceStep}
    (proper : ∀ event, step.event? = some event -> event.Proper) :
    world.follow bridge step =
      let made := world.callAll bridge.console (TraceStep.lines bridge.registry [step])
      (made.1, { bridge with registry := step.advance bridge.registry }, made.2) := by
  cases step with
  | event event parent =>
    have text := (proper event rfl).text_eq_line (bridge.registry.path parent)
    have line : TraceStep.lines bridge.registry [.event event parent] =
        [(event.severity.method, event.line (bridge.registry.path parent))] := rfl
    rw [line, callAll_singleton]
    simp only [follow, showEvent, make, Trace.Event.call, text]
    rfl
  | span id name parent => rfl
  | enter id => rfl
  | leave id => rfl

/-- Following a traced program is calling the console once for each of its events. The
induction is on the program, for all spans that there may be before it. -/
theorem followAll_eq {steps : List TraceStep}
    (proper : ∀ event ∈ steps.filterMap TraceStep.event?, event.Proper) :
    world.followAll bridge steps =
      let made := world.callAll bridge.console (TraceStep.lines bridge.registry steps)
      (made.1, { bridge with registry := steps.foldl TraceStep.advance bridge.registry },
        made.2) := by
  induction steps generalizing world bridge with
  | nil => rfl
  | cons step rest ih =>
    have firstProper : ∀ event, step.event? = some event -> event.Proper := fun event there =>
      proper event (List.mem_filterMap.2 ⟨step, List.mem_cons_self, there⟩)
    have restProper : ∀ event ∈ rest.filterMap TraceStep.event?, event.Proper := by
      intro event there
      obtain ⟨other, inside, made⟩ := List.mem_filterMap.1 there
      exact proper event (List.mem_filterMap.2 ⟨other, List.mem_cons_of_mem _ inside, made⟩)
    have lines_eq : TraceStep.lines bridge.registry (step :: rest) =
        TraceStep.lines bridge.registry [step] ++
          TraceStep.lines (step.advance bridge.registry) rest := by
      simp only [TraceStep.lines, TraceStep.events, List.append_nil, List.map_append]
    rw [followAll, follow_eq firstProper, lines_eq, callAll_append]
    simp only [ih restProper, List.foldl_cons]

/-- A line as a console with these capabilities writes it down, as the only argument. -/
def writtenLine (capabilities : Capabilities) (line : Method × String) : Method × List Argument :=
  capabilities.written (line.1, [.string line.2])

/-- A console of the host has all lines after what it had, and nothing else happens. -/
theorem callAll_host {capabilities : Capabilities} {calls : List (Method × List Argument)}
    (found : world.consoles.row console = .host capabilities calls)
    (lines : List (Method × String)) :
    (world.callAll console lines).1.consoles.row console =
        .host capabilities (calls ++ lines.map (writtenLine capabilities)) ∧
      (world.callAll console lines).2 =
        lines.map fun (method, line) => .called console method line := by
  induction lines generalizing world calls with
  | nil => exact ⟨by rw [List.map_nil, List.append_nil, ← found]; rfl, rfl⟩
  | cons line rest ih =>
    obtain ⟨method, text⟩ := line
    have received : (world.call console method [.string text]).1.consoles.row console =
        .host capabilities (calls ++ [writtenLine capabilities (method, text)]) := by
      rw [call_of_host found]
      exact Table.row_put_same _ _ _
    obtain ⟨final, happened⟩ := ih received
    constructor
    · rw [List.map_cons, List.append_cons]
      exact final
    · show (world.call console method [.string text]).2 ++
        ((world.call console method [.string text]).1.callAll console rest).2 = _
      rw [happened, call_of_host found, Argument.join_string]
      rfl

/-- Calls on a console of the host leave all other consoles as they are. -/
theorem consoles_callAll_of_host {capabilities : Capabilities}
    {calls : List (Method × List Argument)}
    (found : world.consoles.row console = .host capabilities calls)
    (lines : List (Method × String)) {other : ConsoleRef} (distinct : other ≠ console) :
    (world.callAll console lines).1.consoles.row other = world.consoles.row other := by
  induction lines generalizing world calls with
  | nil => rfl
  | cons line rest ih =>
    obtain ⟨method, text⟩ := line
    have called := congrArg (fun made => made.1.consoles) (call_of_host found method [.string text])
    have received : (world.call console method [.string text]).1.consoles.row console =
        .host capabilities (calls ++ [writtenLine capabilities (method, text)]) := by
      rw [called]
      exact Table.row_put_same _ _ _
    calc ((world.call console method [.string text]).1.callAll console rest).1.consoles.row other
        = (world.call console method [.string text]).1.consoles.row other := ih received
      _ = world.consoles.row other := by rw [called, Table.row_put_of_ne _ distinct]

/-- Trace events reach the console of a bridge once each, in full and in order. Let a traced
program do anything to its spans and make any events whose messages, if they have one, are
texts that are not empty, and that record no name twice. Following it is calling the console
once for each event in order, by the method of its severity, with its line as the only
argument: the names of the spans around it and its words. A word is the message, which is
first, or another recorded field, in their order, and none is left out. What is around an
event is told by the laws of the registry; so all spans of a stack are, however high it is.
A console of the host has written down just these calls. -/
theorem events_reach_console_once (world : World) (bridge : EventBridge) (steps : List TraceStep)
    (proper : ∀ event ∈ steps.filterMap TraceStep.event?, event.Proper) :
    let shown := TraceStep.events bridge.registry steps
    let lines := shown.map fun (event, spans) => (event.severity.method, event.line spans)
    let made := world.callAll bridge.console lines
    world.followAll bridge steps =
        (made.1, { bridge with registry := steps.foldl TraceStep.advance bridge.registry },
          made.2) ∧
      shown.map Prod.fst = steps.filterMap TraceStep.event? ∧
      (∀ event : Trace.Event, event.words.length = event.recordedNames.length) ∧
      (∀ (value : Trace.FieldValue) (text : String), value.plainText? = some text ->
        value.recorded.text? = some text) ∧
      (∀ registry : Trace.Registry, registry.Laws) ∧
      (∀ (registry : Trace.Registry) (spans : List (String × String)),
        (spans.map Prod.fst).Nodup -> (∀ span ∈ spans, ¬registry.IsEntered span.1) ->
        (registry.nest spans).path .current = registry.path .current ++ spans.map Prod.snd) ∧
      ∀ (capabilities : Capabilities) (calls : List (Method × List Argument)),
        world.consoles.row bridge.console = .host capabilities calls ->
        made.1.consoles.row bridge.console =
            .host capabilities (calls ++ lines.map (writtenLine capabilities)) ∧
          made.2 = lines.map fun (method, line) => .called bridge.console method line := by
  intro shown lines made
  have followed : world.followAll bridge steps =
      (made.1, { bridge with registry := steps.foldl TraceStep.advance bridge.registry },
        made.2) := followAll_eq proper
  have inOrder := TraceStep.events_map_fst bridge.registry steps
  refine ⟨followed, inOrder, Trace.Event.length_words, fun value text plain => ?_,
    Trace.Registry.laws, fun registry spans distinct outside => ?_,
    fun capabilities calls found => ?_⟩
  · exact Trace.FieldValue.text?_recorded plain
  · exact Trace.Registry.path_nest distinct outside
  · exact callAll_host found lines

/-- A message that comes late is put first, inside of two spans; then one span is left, and
the last event is outside of all spans. The console only has `log` and `warn`. -/
theorem events_reach_console_once_nested :
    let world := (({} : World).addConsole (.host .withWarn [])).1
    let late : Trace.Event :=
      ⟨.warn, [⟨"id", .integer (-7)⟩, ⟨"message", .text "slow"⟩, ⟨"cached", .boolean false⟩]⟩
    let short : Trace.Event := ⟨.trace, [⟨"message", .shown "done"⟩]⟩
    let silent : Trace.Event := ⟨.info, [⟨"count", .natural 3⟩, ⟨"user", .absent⟩]⟩
    let steps : List TraceStep := [.span "a" "request" .current, .enter "a",
      .span "b" "query" .current, .enter "b", .event late .current, .leave "b",
      .event short .current, .event silent .root]
    (∀ event ∈ steps.filterMap TraceStep.event?, event.Proper) ∧
      (world.followAll { console := ⟨0⟩ } steps).1.consoles.row ⟨0⟩ =
        .host .withWarn [(.warn, [.string "request::query: slow id=-7 cached=false"]),
          (.log, [.string "request: done"]), (.log, [.string "count=3"])] := by
  intro world late short silent steps
  have proper : ∀ event ∈ steps.filterMap TraceStep.event?, event.Proper := by
    intro event there
    have which : late = event ∨ short = event ∨ silent = event := by
      simpa [steps, TraceStep.event?] using there
    rcases which with rfl | rfl | rfl
    all_goals
      refine ⟨by decide +kernel, ?_⟩
      simp [late, short, silent, Trace.Field.Plain, Trace.messageName,
        Trace.FieldValue.recorded, Trace.Recorded.text?]
  obtain ⟨followed, -, -, -, -, -, written⟩ :=
    events_reach_console_once world { console := ⟨0⟩ } steps proper
  have lines : (TraceStep.events {} steps).map TraceStep.lineOf =
      [(.warn, "request::query: slow id=-7 cached=false"), (.debug, "request: done"),
        (.info, "count=3")] := by decide +kernel
  refine ⟨proper, ?_⟩
  rw [followed, (written .withWarn [] rfl).1]
  exact congrArg (fun told => Console.host .withWarn (told.map (writtenLine .withWarn))) lines

end World

end ScriptConsole
