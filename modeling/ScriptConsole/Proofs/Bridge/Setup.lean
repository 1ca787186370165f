import ScriptConsole.Bridge.Wiring

/-!
# Setups of a process

Any part of a program may ask for a console to be made the logger of the process, its
subscriber, or both. These requests alone tell what the process has, and what the next one
is answered: the first to come is served, and the others are refused. A request for both
has two halves, and the second may be refused when the first is done.
-/

namespace ScriptConsole

/-- A request to make a console the logger of the process, its subscriber, or both. -/
inductive Setup where
  | logger (console : ConsoleRef) (threshold : Threshold)
  | subscriber (console : ConsoleRef)
  | both (console : ConsoleRef) (threshold : Threshold)
deriving DecidableEq, Repr

namespace Setup

/-- The logger that is asked for. -/
def logger? : Setup -> Option RecordBridge
  | .logger console threshold | .both console threshold => some { console, threshold }
  | .subscriber _ => none

/-- The logger of the first request for one. -/
def firstLogger (history : List Setup) : Option RecordBridge :=
  history.findSome? logger?

/-- The subscriber that is asked for while this is the logger. If there is one, a request
for both does not come to its subscriber. -/
def subscriber? (logger : Option RecordBridge) : Setup -> Option ConsoleRef
  | .logger _ _ => none
  | .subscriber console => some console
  | .both console _ => if logger = none then some console else none

/-- The subscriber of the first of the later requests for one. -/
def firstSubscriberAfter (earlier : List Setup) : (later : List Setup) -> Option ConsoleRef
  | [] => none
  | setup :: later =>
    (setup.subscriber? (firstLogger earlier)).or (firstSubscriberAfter (earlier ++ [setup]) later)

/-- The subscriber of the first request for one. -/
def firstSubscriber (history : List Setup) : Option ConsoleRef :=
  firstSubscriberAfter [] history

/-- The answer to a request after the earlier ones. -/
def answer (earlier : List Setup) : Setup -> Except SetupError Unit
  | .logger _ _ => if firstLogger earlier = none then .ok () else .error .loggerAlreadySet
  | .subscriber _ =>
    if firstSubscriber earlier = none then .ok () else .error .subscriberAlreadySet
  | .both _ _ =>
    if firstLogger earlier ≠ none then .error .loggerAlreadySet
    else if firstSubscriber earlier ≠ none then .error .subscriberAlreadySet
    else .ok ()

theorem firstLogger_append (first second : List Setup) :
    firstLogger (first ++ second) = (firstLogger first).or (firstLogger second) :=
  List.findSome?_append

theorem firstSubscriberAfter_append (earlier first second : List Setup) :
    firstSubscriberAfter earlier (first ++ second) =
      (firstSubscriberAfter earlier first).or
        (firstSubscriberAfter (earlier ++ first) second) := by
  induction first generalizing earlier with
  | nil => simp [firstSubscriberAfter]
  | cons setup first ih => simp [firstSubscriberAfter, ih, Option.or_assoc]

theorem firstSubscriber_append (first second : List Setup) :
    firstSubscriber (first ++ second) =
      (firstSubscriber first).or (firstSubscriberAfter first second) :=
  firstSubscriberAfter_append [] first second

theorem firstLogger_concat (history : List Setup) (setup : Setup) :
    firstLogger (history ++ [setup]) = (firstLogger history).or setup.logger? := by
  rw [firstLogger_append]
  cases setup <;> rfl

theorem firstSubscriber_concat (history : List Setup) (setup : Setup) :
    firstSubscriber (history ++ [setup]) =
      (firstSubscriber history).or (setup.subscriber? (firstLogger history)) := by
  rw [firstSubscriber_append, firstSubscriberAfter, firstSubscriberAfter, Option.or_none]

end Setup

open Setup

namespace Wiring

variable {initial wiring middle later : Wiring} {history more : List Setup}

/-! ## What a request does -/

/-- Do what is asked for, as far as it can be done. -/
def setUp (wiring : Wiring) : Setup -> Wiring × Except SetupError Unit
  | .logger console threshold => wiring.attempt (wiring.setLogger console threshold)
  | .subscriber console => wiring.attempt (wiring.setSubscriber console)
  | .both console threshold => wiring.setBoth console threshold

/-- A logger and a subscriber that are there stay, and the threshold changes only together
with the logger. -/
theorem setUp_fst (wiring : Wiring) (setup : Setup) :
    (wiring.setUp setup).1 = { wiring with
      logger := wiring.logger.or setup.logger?
      threshold :=
        match wiring.logger, setup.logger? with
        | none, some logger => logger.threshold
        | _, _ => wiring.threshold
      subscriber := wiring.subscriber.or (setup.subscriber? wiring.logger) } := by
  obtain ⟨world, outlets, logger, threshold, subscriber⟩ := wiring
  cases setup <;> cases logger <;> cases subscriber <;> rfl

/-- The request for both is refused halfway: its logger is set, but not its subscriber. -/
def StopsHalfway (wiring : Wiring) (setup : Setup) (error : SetupError) : Prop :=
  ∃ console threshold,
    setup = .both console threshold ∧ error = .subscriberAlreadySet ∧ wiring.logger = none ∧
      (wiring.setUp setup).1 = { wiring with logger := some { console, threshold }, threshold }

/-- What is refused changes nothing, unless it is refused halfway. -/
theorem setUp_of_error {setup : Setup} {error : SetupError}
    (refused : (wiring.setUp setup).2 = .error error) :
    (wiring.setUp setup).1 = wiring ∨ wiring.StopsHalfway setup error := by
  obtain ⟨world, outlets, logger, threshold, subscriber⟩ := wiring
  cases setup with
  | logger console level =>
    cases logger with
    | some logger => exact .inl rfl
    | none => cases refused
  | subscriber console =>
    cases subscriber with
    | some subscriber => exact .inl rfl
    | none => cases refused
  | both console level =>
    cases logger with
    | some logger => exact .inl rfl
    | none =>
      cases subscriber with
      | some subscriber =>
        cases refused
        exact .inr ⟨console, level, rfl, rfl, rfl, rfl⟩
      | none => cases refused

/-- The bridges of a process are told by the requests that were made. -/
structure Installed (threshold : Threshold) (history : List Setup) (wiring : Wiring) : Prop where
  logger : wiring.logger = firstLogger history
  /-- The threshold is that of the logger, once there is one. -/
  threshold : wiring.threshold = (firstLogger history).elim threshold RecordBridge.threshold
  subscriber : wiring.subscriber = firstSubscriber history

namespace Installed

variable {threshold : Threshold}

theorem answers (installed : Installed threshold history wiring) (setup : Setup) :
    (wiring.setUp setup).2 = answer history setup := by
  obtain ⟨world, outlets, logger, level, subscriber⟩ := wiring
  obtain ⟨rfl, -, rfl⟩ := installed
  cases setup with
  | logger console level =>
    simp only [answer, setUp, setLogger]
    cases firstLogger history <;> rfl
  | subscriber console =>
    simp only [answer, setUp, setSubscriber]
    cases firstSubscriber history <;> rfl
  | both console level =>
    simp only [answer, setUp, setBoth, setLogger, setSubscriber]
    cases firstLogger history with
    | some logger => rfl
    | none => cases firstSubscriber history <;> rfl

theorem setUp (installed : Installed threshold history wiring) (setup : Setup) :
    Installed threshold (history ++ [setup]) (wiring.setUp setup).1 := by
  rw [setUp_fst]
  constructor
  · rw [firstLogger_concat, ← installed.logger]
  · rw [firstLogger_concat, ← installed.logger]
    have level := installed.threshold
    rw [← installed.logger] at level
    cases set : wiring.logger with
    | some logger => simpa [set] using level
    | none =>
      rw [set] at level
      cases asked : setup.logger? with
      | some logger => rfl
      | none => exact level
  · rw [firstSubscriber_concat, ← installed.logger, ← installed.subscriber]

end Installed

/-! ## What is done besides -/

/-- The process has the bridges that it had. -/
structure SameBridges (before after : Wiring) : Prop where
  logger : after.logger = before.logger
  threshold : after.threshold = before.threshold
  subscriber : after.subscriber = before.subscriber

theorem SameBridges.trans (early : SameBridges wiring middle) (late : SameBridges middle later) :
    SameBridges wiring later where
  logger := late.logger.trans early.logger
  threshold := late.threshold.trans early.threshold
  subscriber := late.subscriber.trans early.subscriber

/-- What is emitted changes the world only. -/
theorem emit_fst (wiring : Wiring) (event : Trace.Event) :
    (wiring.emit event).1 = { wiring with world := (wiring.emit event).1.world } := by
  unfold emit
  split <;> rfl

theorem emitAll_fst (wiring : Wiring) (events : List Trace.Event) :
    (wiring.emitAll events).1 = { wiring with world := (wiring.emitAll events).1.world } := by
  induction events generalizing wiring with
  | nil => rfl
  | cons event events ih =>
    rw [emitAll, ih, wiring.emit_fst event]

theorem sameBridges_emit (wiring : Wiring) (event : Trace.Event) :
    SameBridges wiring (wiring.emit event).1 := by
  rw [emit_fst]
  exact ⟨rfl, rfl, rfl⟩

theorem sameBridges_emitAll (wiring : Wiring) (events : List Trace.Event) :
    SameBridges wiring (wiring.emitAll events).1 := by
  rw [emitAll_fst]
  exact ⟨rfl, rfl, rfl⟩

theorem sameBridges_log (wiring : Wiring) (record : LogRecord) :
    SameBridges wiring (wiring.log record).1 := by
  unfold log
  split
  · exact ⟨rfl, rfl, rfl⟩
  · split
    · split
      · exact ⟨rfl, rfl, rfl⟩
      · next call _ =>
        have heard := sameBridges_emitAll { wiring with world := (wiring.world.make call).1 }
          (traced (wiring.world.make call).2)
        exact ⟨heard.logger, heard.threshold, heard.subscriber⟩
    · exact ⟨rfl, rfl, rfl⟩

theorem sameBridges_openOutlet (wiring : Wiring) (id : String) (kind : OutletKind) :
    SameBridges wiring (wiring.openOutlet id kind).1 := by
  have heard := sameBridges_emitAll { wiring with
    world := (wiring.world.openOutlet kind).1
    outlets := (id, (wiring.world.openOutlet kind).2.1) :: wiring.outlets }
    (traced (wiring.world.openOutlet kind).2.2)
  exact ⟨heard.logger, heard.threshold, heard.subscriber⟩

theorem Installed.of_same {threshold : Threshold} (installed : Installed threshold history wiring)
    (same : SameBridges wiring later) : Installed threshold history later where
  logger := same.logger.trans installed.logger
  threshold := same.threshold.trans installed.threshold
  subscriber := same.subscriber.trans installed.subscriber

/-! ## Runs -/

/-- What a process comes to, with the requests that were made on the way. In between it
does anything else that a process does. -/
inductive Run (initial : Wiring) : List Setup -> Wiring -> Prop where
  | start : Run initial [] initial
  | setUp {history : List Setup} {wiring : Wiring} (run : Run initial history wiring)
      (setup : Setup) : Run initial (history ++ [setup]) (wiring.setUp setup).1
  | openOutlet {history : List Setup} {wiring : Wiring} (run : Run initial history wiring)
      (id : String) (kind : OutletKind) : Run initial history (wiring.openOutlet id kind).1
  | log {history : List Setup} {wiring : Wiring} (run : Run initial history wiring)
      (record : LogRecord) : Run initial history (wiring.log record).1
  | emit {history : List Setup} {wiring : Wiring} (run : Run initial history wiring)
      (event : Trace.Event) : Run initial history (wiring.emit event).1
  | takeCalls {history : List Setup} {wiring : Wiring} (run : Run initial history wiring) :
      Run initial history wiring.takeCalls.1

namespace Run

theorem trans (first : Run initial history wiring) (second : Run wiring more later) :
    Run initial (history ++ more) later := by
  induction second with
  | start => simpa using first
  | setUp _ setup ih => simpa using ih.setUp setup
  | openOutlet _ id kind ih => exact ih.openOutlet id kind
  | log _ record ih => exact ih.log record
  | emit _ event ih => exact ih.emit event
  | takeCalls _ ih => exact ih.takeCalls

theorem installed (run : Run initial history wiring) (noLogger : initial.logger = none)
    (noSubscriber : initial.subscriber = none) : Installed initial.threshold history wiring := by
  induction run with
  | start => exact ⟨noLogger, rfl, noSubscriber⟩
  | setUp _ setup ih => exact ih.setUp setup
  | openOutlet _ id kind ih => exact ih.of_same (sameBridges_openOutlet _ id kind)
  | log _ record ih => exact ih.of_same (sameBridges_log _ record)
  | emit _ event ih => exact ih.of_same (sameBridges_emit _ event)
  | takeCalls _ ih => exact ih.of_same ⟨rfl, rfl, rfl⟩

end Run

/-- The request that a step makes, for the console of the outlet that it opens. -/
def setup? (wiring : Wiring) : Step -> Option Setup
  | .initLog id kind threshold => some (.logger (wiring.openOutlet id kind).2 threshold)
  | .initTrace id kind => some (.subscriber (wiring.openOutlet id kind).2)
  | .initBoth id kind threshold => some (.both (wiring.openOutlet id kind).2 threshold)
  | .log _ | .emit _ => none

/-- A step makes its request, and is answered what the request is answered. -/
structure Requests (initial : Wiring) (history : List Setup) (wiring : Wiring) (step : Step) :
    Prop where
  run : Run initial (history ++ (wiring.setup? step).toList) (wiring.step step).1
  answer : (wiring.step step).2 = (wiring.setup? step).elim (.ok ()) (answer history)

theorem Run.requests (run : Run initial history wiring) (noLogger : initial.logger = none)
    (noSubscriber : initial.subscriber = none) (step : Step) :
    Requests initial history wiring step := by
  have installed := run.installed noLogger noSubscriber
  have opened := fun id kind => installed.of_same (sameBridges_openOutlet wiring id kind)
  cases step with
  | initLog id kind threshold =>
    let setup : Setup := .logger (wiring.openOutlet id kind).2 threshold
    exact ⟨(run.openOutlet id kind).setUp setup, (opened id kind).answers setup⟩
  | initTrace id kind =>
    let setup : Setup := .subscriber (wiring.openOutlet id kind).2
    exact ⟨(run.openOutlet id kind).setUp setup, (opened id kind).answers setup⟩
  | initBoth id kind threshold =>
    let setup : Setup := .both (wiring.openOutlet id kind).2 threshold
    exact ⟨(run.openOutlet id kind).setUp setup, (opened id kind).answers setup⟩
  | log record =>
    refine ⟨?_, rfl⟩
    rw [show history ++ (wiring.setup? (.log record)).toList = history from List.append_nil _]
    exact run.log record
  | emit event =>
    refine ⟨?_, rfl⟩
    rw [show history ++ (wiring.setup? (.emit event)).toList = history from List.append_nil _]
    exact run.emit event

/-- What is set stays set, whatever is done later. -/
structure Lasts (wiring later : Wiring) : Prop where
  logger : ∀ logger, wiring.logger = some logger ->
    later.logger = some logger ∧ later.threshold = logger.threshold
  subscriber : ∀ console, wiring.subscriber = some console -> later.subscriber = some console

theorem Installed.lasts {threshold : Threshold} (early : Installed threshold history wiring)
    (late : Installed threshold (history ++ more) later) : Lasts wiring later where
  logger := by
    intro logger set
    have first : firstLogger (history ++ more) = some logger := by
      rw [firstLogger_append, ← early.logger, set, Option.some_or]
    rw [late.logger, late.threshold, first]
    exact ⟨rfl, rfl⟩
  subscriber := by
    intro console set
    rw [late.subscriber, firstSubscriber_append, ← early.subscriber, set, Option.some_or]

/-- The bridges of a process are those of the first requests. In every run from a process
without bridges, whatever else is done in it, the logger and the threshold are those of
the first request for a logger, and the subscriber is that of the first request that comes
to one; none is ever replaced. A request is refused exactly if what it asks for is there,
and then it changes nothing, except that a request for both may be refused halfway. -/
theorem bridges_of_first_setups (run : Run initial history wiring)
    (noLogger : initial.logger = none) (noSubscriber : initial.subscriber = none) :
    Installed initial.threshold history wiring ∧
      (∀ setup, (wiring.setUp setup).2 = answer history setup) ∧
      (∀ setup error, (wiring.setUp setup).2 = .error error ->
        (wiring.setUp setup).1 = wiring ∨ wiring.StopsHalfway setup error) ∧
      (∀ more later, Run wiring more later -> Lasts wiring later) ∧
      ∀ step, Requests initial history wiring step := by
  have installed := run.installed noLogger noSubscriber
  refine ⟨installed, installed.answers, fun setup error => setUp_of_error,
    fun more later onwards => ?_, run.requests noLogger noSubscriber⟩
  exact installed.lasts ((run.trans onwards).installed noLogger noSubscriber)

/-- There is a subscriber already, so a request for both stops halfway and leaves its logger;
the next request for a logger comes too late. -/
theorem bridges_of_first_setups_halfway :
    let console : Setup := .subscriber ⟨0⟩
    let both : Setup := .both ⟨1⟩ (.upTo .info)
    let first := (({} : Wiring).setUp console).1
    let second := (first.setUp both).1
    ({} : Wiring).logger = none ∧ ({} : Wiring).subscriber = none ∧
      (first.setUp both).2 = .error .subscriberAlreadySet ∧
      first.StopsHalfway both .subscriberAlreadySet ∧
      Installed .off [console, both] second ∧ second.logger = some ⟨⟨1⟩, .upTo .info⟩ ∧
      (second.setUp (.logger ⟨2⟩ .off)).2 = .error .loggerAlreadySet ∧
      Lasts second (second.log ⟨.warn, "late"⟩).1 := by
  intro console both first second
  have run : Run {} [console] first := Run.start.setUp console
  obtain ⟨-, answers, refused, -, -⟩ := bridges_of_first_setups run rfl rfl
  obtain ⟨installed, later, -, lasts, -⟩ := bridges_of_first_setups (run.setUp both) rfl rfl
  refine ⟨rfl, rfl, answers both, ?_, installed, rfl, later _, lasts [] _ (.log .start _)⟩
  refine (refused both .subscriberAlreadySet rfl).resolve_left fun same => ?_
  cases (congrArg Wiring.logger same : some _ = none)

end Wiring
end ScriptConsole
