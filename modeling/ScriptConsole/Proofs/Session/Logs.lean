import ScriptConsole.Proofs.MemoryLog.Window
import ScriptConsole.Proofs.Session.Moment

/-!
# Logs are windows on their history

The chronicle tells which reports a log was given since it was cleared last. At every
moment of a run the log is the window on them that its limit leaves, through whichever
handle it is looked at and whoever reported. What is neither a report to the log nor its
clearing leaves it alone.
-/

namespace ScriptConsole

open Session (Entry Step)

namespace Chronicle

/-- The report that an entry gives a log, if it gives it one. -/
def report? (log : LogRef) : Entry -> Option Report
  | .happened (.delivered model report) => if model.log? = some log then some report else none
  | _ => none

/-- The reports that a log was given since it was cleared last, in order. -/
def history (log : LogRef) (told : List Entry) : List Report :=
  (told.rtakeWhile fun entry => entry ≠ .cleared log).filterMap (report? log)

theorem history_cleared (log : LogRef) (told : List Entry) :
    history log (told ++ [.cleared log]) = [] := by
  simp [history]

theorem history_concat {log : LogRef} {entry : Entry} (distinct : entry ≠ .cleared log)
    (told : List Entry) :
    history log (told ++ [entry]) = history log told ++ (report? log entry).toList := by
  have stays : decide (entry ≠ .cleared log) = true := decide_eq_true distinct
  rw [history, List.rtakeWhile_concat, if_pos stays, List.filterMap_append, ← history]
  rfl

/-- An entry that does not clear a log changes it by the report that it gives, if any. -/
theorem keep_of_ne {log : LogRef} {entry : Entry} (distinct : entry ≠ .cleared log)
    (memory : MemoryLog) :
    keep log memory entry = (report? log entry).elim memory memory.record := by
  cases entry with
  | reported other report => rfl
  | cleared other =>
    have apart : other ≠ log := fun same => distinct (congrArg Entry.cleared same)
    exact if_neg apart
  | happened occurrence =>
    cases occurrence with
    | delivered model report =>
      simp only [keep, report?]
      split <;> rfl
    | _ => rfl

/-- A log that started empty holds its history. -/
theorem holds_kept (log : LogRef) (limit : Option Nat) (told : List Entry) :
    (kept log { limit } told).Holds (history log told) := by
  induction told using List.reverseRecOn with
  | nil => exact MemoryLog.holds_empty limit
  | append_singleton told entry ih =>
    rw [kept_append]
    by_cases clears : entry = .cleared log
    · subst clears
      rw [history_cleared, show kept log _ [.cleared log] = _ from if_pos rfl]
      exact MemoryLog.Holds.clear _
    · rw [history_concat clears, show kept log _ [entry] = _ from keep_of_ne clears _]
      cases report? log entry with
      | none => simpa using ih
      | some report => exact ih.record report

/-- The entry neither gives the log a report nor clears it. -/
def Spares (log : LogRef) (entry : Entry) : Prop :=
  entry ≠ .cleared log ∧ report? log entry = none

instance (log : LogRef) (entry : Entry) : Decidable (Spares log entry) :=
  inferInstanceAs (Decidable (_ ∧ _))

theorem kept_of_spares {log : LogRef} {told : List Entry}
    (spares : ∀ entry ∈ told, Spares log entry) (memory : MemoryLog) :
    kept log memory told = memory := by
  induction told generalizing memory with
  | nil => rfl
  | cons entry told ih =>
    obtain ⟨distinct, nothing⟩ := spares entry List.mem_cons_self
    rw [kept, List.foldl_cons, keep_of_ne distinct, nothing]
    exact ih (fun other there => spares other (List.mem_cons_of_mem _ there)) memory

end Chronicle

open Chronicle

namespace MemoryLog

/-- What a log shows that was given the reports of a history. -/
structure Shows (log : MemoryLog) (history : List Report) : Prop where
  entries : log.entries = window log.limit history
  bounded : ∀ limit, log.limit = some limit -> log.size ≤ limit
  size : log.size = log.entries.length
  isEmpty : log.isEmpty = true ↔ log.size = 0
  errorsFrom : ∀ source, log.errorsFrom source =
    log.entries.filter fun report => report.source = source

theorem Holds.shows {log : MemoryLog} {history : List Report} (holds : log.Holds history) :
    log.Shows history where
  entries := holds
  bounded := fun _ limited => holds.size_le limited
  size := rfl
  isEmpty := by simp [MemoryLog.isEmpty, MemoryLog.size]
  errorsFrom := fun _ => rfl

end MemoryLog

namespace Session

variable {session : Session}

/-- The ways in which something in a session reaches a log. -/
inductive LogHandle (session : Session) (log : LogRef) : Prop where
  | name {name : String} (found : session.logs.find name = .ok log)
  | model {application : ApplicationRef} {model : LogModel}
      (exposes : (session.world.applications.row application).logs = some model)
      (keeps : model.log? = some log)

/-- A handle is of a log that is there. -/
theorem LogHandle.has {log : LogRef} (handle : session.LogHandle log) (closed : session.Closed) :
    session.world.logs.Has log := by
  cases handle with
  | name found => exact closed.logs _ _ found
  | model exposes keeps => exact (closed.world.application _ _ exposes).has_log keeps

/-- What is done with a log through one of its names, at this moment. -/
structure LogOperations (session : Session) (name : String) (log : LogRef) : Prop where
  /-- Looking shows what the log holds, and changes nothing. -/
  entries : session.step (.entries name) =
    (session, ⟨.ok (.log (session.world.logs.row log)), []⟩)
  errorsFrom : ∀ source, session.step (.errorsFrom name source) =
    (session, ⟨.ok (.reports ((session.world.logs.row log).errorsFrom source)), []⟩)
  /-- Another name is one of the same log, and nothing in the world changes. -/
  shareLog : ∀ id, let after := (session.step (.shareLog id name)).1
    after.logs.find id = .ok log ∧ after.world = session.world
  logError : ∀ report, session.entries (.logError name report) =
    [.reported log report, .happened (.delivered (.memory log) report)]
  clearLog : session.entries (.clearLog name) = [.cleared log]

theorem logOperations {name : String} {log : LogRef} (found : session.logs.find name = .ok log) :
    LogOperations session name log where
  entries := by simp [Session.step, advance, found]
  errorsFrom := by simp [Session.step, advance, found]
  shareLog := by simp [Session.step, advance, found]
  logError := fun report => session.tells.logError name log report found
  clearLog := session.tells.clearLog name log found

/-- A log that is made is empty and nothing reached it before, and it keeps its limit. -/
structure LogAliases (session : Session) : Prop where
  newLog : ∀ id limit, let after := (session.step (.newLog id limit)).1
    ∃ log, after.logs.find id = .ok log ∧ ¬session.LogHandle log ∧
      after.world.logs.row log = { limit }
  lasts : ∀ log, session.world.logs.Has log -> ∀ steps,
    ((session.run steps).1.world.logs.row log).limit = (session.world.logs.row log).limit

theorem logAliases (closed : session.Closed) : LogAliases session where
  newLog := by
    intro id limit
    refine ⟨session.world.logs.fresh, ?_, ?_, ?_⟩
    · simp [Session.step, advance, World.addLog]
    · exact fun handle => Table.not_has_fresh _ (handle.has closed)
    · simp [Session.step, advance, World.addLog]
  lasts := fun log there steps => ((session.run_grows steps).logs log there).2

/-- A step that spares a log leaves it as it is. -/
theorem log_step_of_spares (closed : session.Closed) {told : List Entry}
    (tells : ∀ slot, session.world.application slot = application slot told) {log : LogRef}
    (there : session.world.logs.Has log) {step : Step}
    (spares : ∀ entry ∈ session.entries step, Spares log entry) :
    (session.step step).1.world.logs.row log = session.world.logs.row log := by
  obtain ⟨-, accounts⟩ := step_forwards closed step (.refl _) tells
  rw [accounts.log log, kept_of_spares spares, ((session.step_grows step).logs log there).2]

/-- A log is a window on its history. At every moment of a run, within calls too, every
log holds the last reports that it was given since it was cleared, oldest first and as
many as its limit leaves; so of two logs with one history the limited one holds the end
of what the other holds. Every name of a log shows and changes the same log, and steps
that neither report to it nor clear it leave it alone. -/
theorem log_is_sliding_window (steps : List Step) :
    let session := (({} : Session).run steps).1
    (∀ world told, Moment {} steps world told ->
      (∀ log, (world.logs.row log).Shows (history log told)) ∧
        ∀ limited full, (world.logs.row full).limit = none ->
          history limited told = history full told ->
          (world.logs.row limited).entries <:+ (world.logs.row full).entries) ∧
      Moment {} steps session.world (({} : Session).chronicle steps) ∧
      (∀ name log, session.logs.find name = .ok log -> LogOperations session name log) ∧
      LogAliases session ∧
      ∀ log, session.world.logs.Has log -> ∀ step,
        (∀ entry ∈ session.entries step, Spares log entry) ->
        (session.step step).1.world.logs.row log = session.world.logs.row log := by
  intro session
  have closed : session.Closed := run_closed closed_empty steps
  have finish := moment_end {} steps
  refine ⟨fun world told moment => ?_, finish, fun name log found => logOperations found,
    logAliases closed, fun log there step spares => ?_⟩
  · have holds : ∀ log, (world.logs.row log).Holds (history log told) := by
      intro log
      rw [moment.told_of_empty.2 log]
      exact holds_kept log _ told
    refine ⟨fun log => (holds log).shows, fun limited full unlimited same => ?_⟩
    exact (same ▸ holds limited).suffix (holds full) unlimited
  · exact log_step_of_spares closed finish.told_of_empty.1 there spares

/-- A log for two reports and one without a limit are given the same reports: the limited
one by two names and, for the last report, through a console. -/
theorem log_is_sliding_window_full :
    let steps : List Step := [.newLog "small" (some 2), .newLog "full" none,
      .shareLog "other" "small", .newApplication "page" (.memory "other"), .newSlot "slot",
      .newFallback "console" (.slot "slot") (some "host"), .setApplication "page" (.slot "slot"),
      .logError "small" ⟨"a", "host"⟩, .clearLog "other", .logError "small" ⟨"b", "host"⟩,
      .logError "full" ⟨"b", "host"⟩, .logError "other" ⟨"c", "host"⟩,
      .logError "full" ⟨"c", "host"⟩, .invoke (.console "console") .warn [.text "d"],
      .logError "full" ⟨"d", "host"⟩]
    let session := (({} : Session).run steps).1
    (session.world.logs.row ⟨0⟩).entries = [⟨"c", "host"⟩, ⟨"d", "host"⟩] ∧
      (session.world.logs.row ⟨0⟩).entries <:+ (session.world.logs.row ⟨1⟩).entries ∧
      (session.world.logs.row ⟨0⟩).size ≤ 2 ∧ LogOperations session "other" ⟨0⟩ ∧
      (session.step (.clearLog "full")).1.world.logs.row ⟨0⟩ = session.world.logs.row ⟨0⟩ := by
  intro steps session
  obtain ⟨windows, finish, operations, -, spared⟩ := log_is_sliding_window steps
  obtain ⟨shows, suffix⟩ := windows _ _ finish
  refine ⟨by decide +kernel, ?_, ?_, ?_, ?_⟩
  · exact suffix ⟨0⟩ ⟨1⟩ (by decide +kernel) (by decide +kernel)
  · exact (shows ⟨0⟩).bounded 2 (by decide +kernel)
  · exact operations "other" ⟨0⟩ (by decide +kernel)
  · exact spared ⟨0⟩ (by decide +kernel) (.clearLog "full") (by decide +kernel)

end Session
end ScriptConsole
