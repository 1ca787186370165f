import ScriptConsole.Proofs.Session.Closed
import ScriptConsole.Proofs.World.Reception

/-!
# Chronicles

A chronicle puts down what happens in a session, in order: what the host program does
to logs itself, and every occurrence in the world. From its calls and bindings alone it
can be told what every error log should have been given: `owed` looks a call's
application up in what is put down before it, never in the state of a slot. `received`
reads off what was in fact delivered, and `kept` what a log should hold by that.
-/

namespace ScriptConsole

namespace Session

/-- Something that is put down about a session. -/
inductive Entry where
  /-- The host program reports an error to a log itself. -/
  | reported (log : LogRef) (report : Report)
  /-- The host program clears a log. -/
  | cleared (log : LogRef)
  | happened (occurrence : Occurrence)
deriving DecidableEq, Repr

/-- What the host program does to logs itself in a step. -/
def deeds (session : Session) : Step -> List Entry
  | .logError name report =>
    match session.logs.find name with
    | .ok log => [.reported log report]
    | .error _ => []
  | .clearLog name =>
    match session.logs.find name with
    | .ok log => [.cleared log]
    | .error _ => []
  | _ => []

/-- What is put down about a step. -/
def entries (session : Session) (step : Step) : List Entry :=
  session.deeds step ++ (session.step step).2.occurrences.map .happened

/-- What is put down about the steps of a run. -/
def chronicle (session : Session) : List Step -> List Entry
  | [] => []
  | step :: steps => session.entries step ++ (session.step step).1.chronicle steps

end Session

namespace Chronicle

open Session (Entry)

/-- What is delivered by an entry. -/
def delivery? : Entry -> Option (LogModel × Report)
  | .happened occurrence => occurrence.delivery?
  | _ => none

/-- The reports that error logs are given, with the error log of each, in order. -/
def received (entries : List Entry) : List (LogModel × Report) :=
  entries.filterMap delivery?

/-- What is in a slot after an entry. -/
def rebind (slot : SlotRef) (current : Option ApplicationRef) : Entry -> Option ApplicationRef
  | .happened (.bound other application _) => if other = slot then some application else current
  | .happened (.unbound other _) => if other = slot then none else current
  | _ => current

/-- The application that was bound to a slot last, unless the slot was cleared
since. -/
def application (slot : SlotRef) (entries : List Entry) : Option ApplicationRef :=
  entries.foldl (rebind slot) none

/-- What an entry asks to be delivered, after the earlier entries: a report of the host
goes to its log, and a call of a fallback console to the error log of the application
that is bound to its slot by then. Of the world only what never changes is used. -/
def due (world : World) (earlier : List Entry) : Entry -> List (LogModel × Report)
  | .reported log report => [(.memory log, report)]
  | .happened (.called console _ text) =>
    match (world.consoles.row console).wiring? with
    | none => []
    | some (slot, config) =>
      match (application slot earlier).bind fun ref => (world.applications.row ref).logs with
      | none => []
      | some model => [(model, ⟨text, config.source⟩)]
  | _ => []

/-- What the entries ask to be delivered, one after the other. -/
def owed (world : World) (earlier : List Entry) : List Entry -> List (LogModel × Report)
  | [] => []
  | entry :: later => due world earlier entry ++ owed world (earlier ++ [entry]) later

/-- A log after an entry: it takes in what is delivered to a model that keeps its reports
there, and forgets everything when the host clears it. -/
def keep (log : LogRef) (memory : MemoryLog) : Entry -> MemoryLog
  | .happened (.delivered model report) =>
    if model.log? = some log then memory.record report else memory
  | .cleared other => if other = log then memory.clear else memory
  | _ => memory

/-- What a log holds after some entries. -/
def kept (log : LogRef) (memory : MemoryLog) (entries : List Entry) : MemoryLog :=
  entries.foldl (keep log) memory

theorem received_append (first second : List Entry) :
    received (first ++ second) = received first ++ received second :=
  List.filterMap_append

theorem application_append (slot : SlotRef) (first second : List Entry) :
    application slot (first ++ second) = second.foldl (rebind slot) (application slot first) :=
  List.foldl_append

theorem owed_append (world : World) (earlier first second : List Entry) :
    owed world earlier (first ++ second) =
      owed world earlier first ++ owed world (earlier ++ first) second := by
  induction first generalizing earlier with
  | nil => simp [owed]
  | cons entry first ih => simp [owed, ih]

theorem kept_append (log : LogRef) (memory : MemoryLog) (first second : List Entry) :
    kept log memory (first ++ second) = kept log (kept log memory first) second :=
  List.foldl_append

/-- What is installed on other threads concerns neither slots nor logs. -/
theorem inert_race (environment : EnvironmentRef) (outcomes : List Installation) :
    let entries := (outcomes.map (Occurrence.offeredElsewhere environment)).map Entry.happened
    received entries = [] ∧ (∀ world earlier, owed world earlier entries = []) ∧
      (∀ slot current, entries.foldl (rebind slot) current = current) ∧
      ∀ log memory, kept log memory entries = memory := by
  induction outcomes with
  | nil => exact ⟨rfl, fun _ _ => rfl, fun _ _ => rfl, fun _ _ => rfl⟩
  | cons outcome outcomes ih =>
    obtain ⟨received, owed, binds, keeps⟩ := ih
    exact ⟨received, fun world earlier => owed world _, binds, keeps⟩

end Chronicle

end ScriptConsole
