import ScriptConsole.Proofs.Bridge.Events
import ScriptConsole.Proofs.Bridge.Feedback
import ScriptConsole.Proofs.Bridge.Setup
import ScriptConsole.Proofs.Severity

/-!
# Log records on the console of the first logger

A program logs records, and any part of it may ask for bridges at any time. A record passes
the threshold of the process and then that of the logger. The first request for a logger
sets both to the same, and no later one changes them; so from then on every record that is
severe enough is one call on the console of that logger. `Conveys` says this of a single
record, with what the subscriber is shown of it, and `Relays` of all the records of a
program.
-/

namespace ScriptConsole

/-- What a logging program does: it asks for bridges, and it logs records. -/
inductive LogStep where
  | setUp (setup : Setup)
  | log (record : LogRecord)
deriving DecidableEq, Repr

namespace LogStep

/-- The logger that is asked for. -/
def logger? : LogStep -> Option RecordBridge
  | .setUp setup => setup.logger?
  | .log _ => none

/-- The record that is logged. -/
def record? : LogStep -> Option LogRecord
  | .setUp _ => none
  | .log record => some record

end LogStep

/-- The method and the text that show a record. -/
def LogRecord.line (record : LogRecord) : Method × String :=
  (record.severity.method, record.message)

namespace RecordBridge

/-- The call that shows a record. -/
def lineOf (bridge : RecordBridge) (record : LogRecord) : BridgeCall :=
  ⟨.records, bridge.console, record.severity.method, [.string record.message]⟩

/-- The calls that show some records, of those that are severe enough, in order. -/
def shown (bridge : RecordBridge) (records : List LogRecord) : List BridgeCall :=
  (records.filter fun record => record.severity ∈ bridge.threshold.admitted).map bridge.lineOf

variable (bridge : RecordBridge)

theorem shown_append (first second : List LogRecord) :
    bridge.shown (first ++ second) = bridge.shown first ++ bridge.shown second := by
  simp only [shown, List.filter_append, List.map_append]

theorem shown_of_admitted {record : LogRecord}
    (admitted : record.severity ∈ bridge.threshold.admitted) :
    bridge.shown [record] = [bridge.lineOf record] := by
  simp [shown, admitted]

theorem shown_of_not_admitted {record : LogRecord}
    (hidden : record.severity ∉ bridge.threshold.admitted) : bridge.shown [record] = [] := by
  simp [shown, hidden]

/-- No record is severe enough for a threshold that is off. -/
theorem shown_off (off : bridge.threshold = .off) (records : List LogRecord) :
    bridge.shown records = [] := by
  simp [shown, off, Threshold.admitted]

/-- The calls are those of the console, with the text of each record as the only argument. -/
theorem makeAll_shown (world : World) (records : List LogRecord) :
    world.makeAll (bridge.shown records) =
      world.callAll bridge.console ((records.filter fun record =>
        record.severity ∈ bridge.threshold.admitted).map LogRecord.line) := by
  rw [shown]
  induction records.filter _ generalizing world with
  | nil => rfl
  | cons record rest ih =>
    simp only [List.map_cons, World.makeAll, ih]
    rfl

end RecordBridge

namespace Wiring

variable {initial wiring later : Wiring} {bridge : RecordBridge} {steps : List LogStep}
  {history : List Setup}

/-- Do a step of a logging program, and give the calls that the bridges make. -/
def advance (wiring : Wiring) : LogStep -> Wiring × List BridgeCall
  | .setUp setup => ((wiring.setUp setup).1, [])
  | .log record => wiring.log record

/-- Do the steps of a logging program, and give the calls that the bridges make. -/
def advanceAll (wiring : Wiring) : List LogStep -> Wiring × List BridgeCall
  | [] => (wiring, [])
  | step :: rest =>
    let (wiring, first) := wiring.advance step
    let (wiring, more) := wiring.advanceAll rest
    (wiring, first ++ more)

theorem advanceAll_append (wiring : Wiring) (first second : List LogStep) :
    wiring.advanceAll (first ++ second) =
      let (middle, before) := wiring.advanceAll first
      let (final, after) := middle.advanceAll second
      (final, before ++ after) := by
  induction first generalizing wiring with
  | nil => rfl
  | cons step rest ih => simp only [List.cons_append, advanceAll, ih, List.append_assoc]

/-- A request for bridges reaches no console. -/
theorem world_setUp (wiring : Wiring) (setup : Setup) :
    (wiring.setUp setup).1.world = wiring.world := by
  rw [setUp_fst]

/-- A subscriber that is there stays. -/
theorem subscriber_advanceAll {console : ConsoleRef} (heard : wiring.subscriber = some console)
    (steps : List LogStep) : (wiring.advanceAll steps).1.subscriber = some console := by
  induction steps generalizing wiring with
  | nil => exact heard
  | cons step rest ih =>
    apply ih
    cases step with
    | setUp setup => exact (congrArg Wiring.subscriber (setUp_fst wiring setup)).trans (by
        rw [heard, Option.some_or])
    | log record => exact (sameBridges_log wiring record).subscriber.trans heard

/-! ## Before there is a logger -/

theorem logger_setUp_of_none (noLogger : wiring.logger = none) (setup : Setup) :
    (wiring.setUp setup).1.logger = setup.logger? := by
  rw [setUp_fst, noLogger, Option.none_or]

/-- Without a logger records are lost. -/
theorem log_of_none (noLogger : wiring.logger = none) (record : LogRecord) :
    wiring.log record = (wiring, []) := by
  simp only [log, noLogger]

/-- As long as nobody asks for a logger there is none, and no call is made. -/
theorem advanceAll_of_none (noLogger : wiring.logger = none)
    (quiet : ∀ step ∈ steps, step.logger? = none) :
    (wiring.advanceAll steps).1.logger = none ∧
      (wiring.advanceAll steps).1.world = wiring.world ∧ (wiring.advanceAll steps).2 = [] := by
  induction steps generalizing wiring with
  | nil => exact ⟨noLogger, rfl, rfl⟩
  | cons step rest ih =>
    obtain ⟨asksNot, restQuiet⟩ := List.forall_mem_cons.1 quiet
    cases step with
    | setUp setup =>
      have stillNone := (logger_setUp_of_none noLogger setup).trans asksNot
      obtain ⟨logger, world, silent⟩ := ih stillNone restQuiet
      exact ⟨logger, world.trans (world_setUp wiring setup), silent⟩
    | log record =>
      simp only [advanceAll, advance, log_of_none noLogger, List.nil_append]
      exact ih noLogger restQuiet

/-! ## From the first logger on -/

/-- What comes of a record in a process whose logger is this bridge. -/
structure Conveys (wiring : Wiring) (bridge : RecordBridge) (record : LogRecord) : Prop where
  /-- A record that is not severe enough is lost. -/
  hidden : record.severity ∉ bridge.threshold.admitted -> wiring.log record = (wiring, [])
  /-- Any other is one call on the console of the bridge. What is traced of that call is
  shown by the subscriber, and so on. -/
  shown : record.severity ∈ bridge.threshold.admitted ->
    ∃ final more,
      Reacts wiring.subscriber (wiring.world.make (bridge.lineOf record)).1
        (traced (wiring.world.make (bridge.lineOf record)).2) more final ∧
      wiring.log record = ({ wiring with world := final }, bridge.lineOf record :: more)

/-- What comes of some records, from one process to a later one. -/
structure Relays (wiring : Wiring) (bridge : RecordBridge) (records : List LogRecord)
    (final : Wiring) (calls : List BridgeCall) : Prop where
  /-- Each record that is severe enough is one call that is made for it, in order. -/
  inOrder : calls.filter (fun call => call.bridge = .records) = bridge.shown records
  /-- Nothing is done but to make the calls. -/
  world : final.world = (wiring.world.makeAll calls).1
  /-- All other calls show events, on the console of the subscriber. -/
  events : ∀ call ∈ calls, call.bridge = .events -> final.subscriber = some call.console
  /-- There are no others if nothing is traced of the calls for the records. -/
  only : traced (wiring.world.makeAll (bridge.shown records)).2 = [] ->
    calls = bridge.shown records

namespace Relays

variable {middle final : Wiring} {records more : List LogRecord} {calls others : List BridgeCall}

/-- Where nothing is logged no call is made. -/
theorem silent (world : later.world = wiring.world) : Relays wiring bridge [] later [] where
  inOrder := rfl
  world := world
  events := fun _ none => nomatch none
  only := fun _ => rfl

/-- A subscriber that was shown something stays until the end. -/
theorem trans (first : Relays wiring bridge records middle calls)
    (second : Relays middle bridge more final others)
    (stays : ∀ console, middle.subscriber = some console -> final.subscriber = some console) :
    Relays wiring bridge (records ++ more) final (calls ++ others) where
  inOrder := by
    rw [List.filter_append, first.inOrder, second.inOrder, bridge.shown_append]
  world := by
    rw [second.world, first.world, World.makeAll_append]
  events := by
    intro call member kind
    cases List.mem_append.1 member with
    | inl early => exact stays _ (first.events call early kind)
    | inr late => exact second.events call late kind
  only := by
    intro nothing
    rw [bridge.shown_append, World.makeAll_append, traced_append, List.append_eq_nil_iff]
      at nothing
    obtain ⟨early, late⟩ := nothing
    have firstOnly := first.only early
    have reached := first.world
    rw [firstOnly] at reached
    rw [← reached] at late
    rw [bridge.shown_append, firstOnly, second.only late]

/-- Without a subscriber no call is made but for the records. -/
theorem calls_of_deaf (relays : Relays wiring bridge records final calls)
    (deaf : final.subscriber = none) : calls = bridge.shown records := by
  rw [← relays.inOrder, eq_comm, List.filter_eq_self]
  intro call member
  cases kind : call.bridge with
  | records => rfl
  | events =>
    have heard := relays.events call member kind
    rw [deaf] at heard
    cases heard

end Relays

theorem Conveys.relays {record : LogRecord} (conveys : wiring.Conveys bridge record) :
    Relays wiring bridge [record] (wiring.log record).1 (wiring.log record).2 := by
  by_cases severe : record.severity ∈ bridge.threshold.admitted
  · obtain ⟨final, more, reacts, logged⟩ := conveys.shown severe
    have noMore : more.filter (fun call => call.bridge = .records) = [] := by
      rw [List.filter_eq_nil_iff]
      intro call member
      simp [(reacts.shows call member).1]
    rw [logged]
    constructor
    · rw [bridge.shown_of_admitted severe, List.filter_cons_of_pos (by rfl), noMore]
    · exact reacts.makes
    · intro call member kind
      cases List.mem_cons.1 member with
      | inl first => exact BridgeKind.noConfusion (first ▸ kind)
      | inr late => exact (reacts.shows call late).2
    · intro nothing
      rw [bridge.shown_of_admitted severe] at nothing ⊢
      simp only [World.makeAll, List.append_nil] at nothing
      rw [nothing] at reacts
      rw [reacts.of_nil.1]
  · have none := bridge.shown_of_not_admitted severe
    rw [conveys.hidden severe]
    constructor
    · exact none.symm
    · rfl
    · intro call member
      cases member
    · exact fun _ => none.symm

/-- Records are shown by a bridge, and the threshold of the process is that of the bridge. -/
structure Shows (wiring : Wiring) (bridge : RecordBridge) : Prop where
  logger : wiring.logger = some bridge
  threshold : wiring.threshold = bridge.threshold

theorem shows_setUp_of_first (noLogger : wiring.logger = none) {setup : Setup}
    (asks : setup.logger? = some bridge) : (wiring.setUp setup).1.Shows bridge where
  logger := (logger_setUp_of_none noLogger setup).trans asks
  threshold := by rw [setUp_fst, noLogger, asks]

namespace Shows

theorem of_same (shown : wiring.Shows bridge) (same : SameBridges wiring later) :
    later.Shows bridge where
  logger := same.logger.trans shown.logger
  threshold := same.threshold.trans shown.threshold

/-- A later request changes neither the logger nor a threshold. -/
theorem setUp (shown : wiring.Shows bridge) (setup : Setup) :
    (wiring.setUp setup).1.Shows bridge where
  logger := by rw [setUp_fst, shown.logger, Option.some_or]
  threshold := by
    rw [setUp_fst, shown.logger]
    exact shown.threshold

/-- A later request for a logger is refused, and nothing of it is done. -/
theorem setUp_refused (shown : wiring.Shows bridge) {setup : Setup}
    (asks : setup.logger? ≠ none) : wiring.setUp setup = (wiring, .error .loggerAlreadySet) := by
  cases setup with
  | logger console threshold =>
    simp only [Wiring.setUp, setLogger, shown.logger]
    rfl
  | subscriber console => exact absurd rfl asks
  | both console threshold => simp only [Wiring.setUp, setBoth, setLogger, shown.logger]

theorem log (shown : wiring.Shows bridge) (record : LogRecord) :
    (wiring.log record).1.Shows bridge :=
  shown.of_same (sameBridges_log wiring record)

theorem conveys (shown : wiring.Shows bridge) (record : LogRecord) :
    wiring.Conveys bridge record := by
  obtain ⟨world, outlets, logger, threshold, subscriber⟩ := wiring
  obtain ⟨rfl, rfl⟩ := shown
  refine ⟨fun hidden => ?_, fun severe => ?_⟩
  · rw [← Threshold.admits_iff, Bool.not_eq_true] at hidden
    simp only [Wiring.log, hidden, Bool.false_eq_true, if_false]
  · rw [← Threshold.admits_iff] at severe
    have call : bridge.call? record = some (bridge.lineOf record) := by
      simp only [RecordBridge.call?, RecordBridge.isEnabled, severe, if_true]
      rfl
    let made := world.make (bridge.lineOf record)
    let called : Wiring := ⟨made.1, outlets, some bridge, bridge.threshold, subscriber⟩
    have few : (traced made.2).length ≤ 1 := world.length_traced_call_le _ _ _
    refine ⟨_, _, called.reacts_emitAll few, ?_⟩
    simp only [Wiring.log, severe, call, if_true]
    exact Prod.ext (called.emitAll_fst (traced made.2)) rfl

/-- The calls of a logging program are those of its records, whatever it asks for in
between. -/
theorem relays (shown : wiring.Shows bridge) (steps : List LogStep) :
    Relays wiring bridge (steps.filterMap LogStep.record?) (wiring.advanceAll steps).1
        (wiring.advanceAll steps).2 ∧
      (wiring.advanceAll steps).1.Shows bridge := by
  induction steps generalizing wiring with
  | nil => exact ⟨.silent rfl, shown⟩
  | cons step rest ih =>
    cases step with
    | setUp setup =>
      obtain ⟨relays, stillShown⟩ := ih (shown.setUp setup)
      have silent : Relays wiring bridge [] (wiring.setUp setup).1 [] :=
        .silent (world_setUp wiring setup)
      exact ⟨silent.trans relays fun _ heard => subscriber_advanceAll heard rest, stillShown⟩
    | log record =>
      obtain ⟨relays, stillShown⟩ := ih (shown.log record)
      have first := (shown.conveys record).relays
      exact ⟨first.trans relays fun _ heard => subscriber_advanceAll heard rest, stillShown⟩

/-- Whatever a process does, its records are shown by the same bridge afterwards. -/
theorem of_run (shown : initial.Shows bridge) (run : Run initial history later) :
    later.Shows bridge := by
  induction run with
  | start => exact shown
  | setUp _ setup ih => exact ih.setUp setup
  | openOutlet _ id kind ih => exact ih.of_same (sameBridges_openOutlet _ id kind)
  | log _ record ih => exact ih.log record
  | emit _ event ih => exact ih.of_same (sameBridges_emit _ event)
  | takeCalls _ ih => exact ih.of_same ⟨rfl, rfl, rfl⟩

end Shows

/-- Records shown on a console of the host are written down there, and nothing is traced. -/
theorem makeAll_shown_of_host {world : World} {capabilities : Capabilities}
    {written : List (Method × List Argument)}
    (found : world.consoles.row bridge.console = .host capabilities written)
    (records : List LogRecord) :
    let made := world.makeAll (bridge.shown records)
    traced made.2 = [] ∧
      made.1.consoles.row bridge.console =
        .host capabilities (written ++ (bridge.shown records).map fun call =>
          capabilities.written (call.method, call.arguments)) ∧
      ∀ other, other ≠ bridge.console ->
        made.1.consoles.row other = world.consoles.row other := by
  intro made
  have same : made = _ := bridge.makeAll_shown world records
  obtain ⟨reached, happened⟩ := World.callAll_host found ((records.filter fun record =>
    record.severity ∈ bridge.threshold.admitted).map LogRecord.line)
  refine ⟨?_, ?_, fun other distinct => ?_⟩
  · rw [same, happened, traced, List.filterMap_eq_nil_iff]
    intro occurrence member
    obtain ⟨line, -, rfl⟩ := List.mem_map.1 member
    rfl
  · rw [same, reached, List.map_map, RecordBridge.shown, List.map_map]
    rfl
  · rw [same]
    exact World.consoles_callAll_of_host found _ distinct

/-- A record is shown on a console whose model passes it on to one that is traced. So the
record comes back to the same console, as an event. -/
example :
    let world : World :=
      { slots := ⟨[some ⟨0⟩, some ⟨1⟩]⟩, logs := ⟨[{}]⟩, echoes := ⟨[1]⟩
        applications :=
          ⟨[{ logs := some (.echoing ⟨0⟩ ⟨1⟩ ⟨0⟩) }, { logs := some .tracing }]⟩
        consoles := ⟨[.fallback ⟨0⟩ .default, .fallback ⟨1⟩ .default]⟩ }
    let (final, calls) := Wiring.advanceAll { world }
      [.setUp (.both ⟨0⟩ (.upTo .info)), .log ⟨.info, "slow"⟩]
    calls.map BridgeCall.bridge = [.records, .events] ∧
      (final.world.logs.row ⟨0⟩).entries.map Report.message =
        ["slow", "echo slow source=javascript"] := by
  decide +kernel

end Wiring

end ScriptConsole
