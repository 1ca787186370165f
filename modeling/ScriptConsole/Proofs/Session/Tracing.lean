import ScriptConsole.Proofs.Session.Refinement
import ScriptConsole.Proofs.World.Traced

/-!
# What a session traces

Two things are traced: whether a fallback console was installed, as debug output, and a
report to an error log that traces, as an error. Fallback consoles, slots and logs in memory
trace nothing of their own, so every error that is traced is a message of a script. This is
shown link by link for calls and step by step for runs.
-/

namespace ScriptConsole

open Chronicle
open Session (Entry Step Calls)

/-- The line that a report is traced by. If there is no message, the source tag stands
alone. -/
def Report.line (report : Report) : String :=
  if report.message = "" then "source=" ++ report.source
  else report.message ++ " source=" ++ report.source

theorem Report.text_event (report : Report) : report.event.text [] = report.line := by
  obtain ⟨message, source⟩ := report
  have gathered : Trace.Event.text (event ⟨message, source⟩) [] =
      Trace.appendField message "source" source := rfl
  rw [gathered]
  by_cases empty : message = ""
  · subst empty
    rfl
  · have joined : " " ++ ("source=" ++ source) = " source=" ++ source := by
      rw [← String.append_assoc]
      rfl
    simp [Trace.appendField, line, empty, String.append_assoc, joined]

/-- The severity and the text that an occurrence is traced by, if it is traced. -/
def Occurrence.line? : Occurrence -> Option (Severity × String)
  | .delivered .tracing report => some (.error, report.line)
  | .offered _ .installed => some (.debug, "installed console shim")
  | .offered _ .existing => some (.debug, "console already present, leaving it in place")
  | _ => none

theorem Occurrence.map_traced? (occurrence : Occurrence) :
    (occurrence.traced?.map fun event => (event.severity, event.text [])) = occurrence.line? := by
  cases occurrence with
  | delivered model report =>
    cases model with
    | tracing =>
      simp only [traced?, line?, Option.map_some, report.text_event]
      rfl
    | _ => rfl
  | offered environment outcome => cases outcome <;> rfl
  | _ => rfl

/-- What is traced of a report to an error log. -/
def tracedReport? : LogModel × Report -> Option (Severity × String)
  | (.tracing, report) => some (.error, report.line)
  | _ => none

theorem lines_traced (occurrences : List Occurrence) :
    ((traced occurrences).map fun event => (event.severity, event.text [])) =
      occurrences.filterMap Occurrence.line? := by
  rw [traced, List.map_filterMap]
  exact congrArg (List.filterMap · _) (funext Occurrence.map_traced?)

/-- What is installed on other threads is not traced. -/
theorem lines_race (environment : EnvironmentRef) (outcomes : List Installation) :
    (outcomes.map (Occurrence.offeredElsewhere environment)).filterMap Occurrence.line? = [] := by
  induction outcomes with
  | nil => rfl
  | cons outcome outcomes ih => exact ih

namespace Link

/-- The error that a call is traced by: its message with the source tag of the console, if
the error log that the console's slot leads to traces. -/
def line? (link : Link) : Option (Severity × String) :=
  match link.world.consoles.row link.console with
  | .host _ _ => none
  | .fallback slot config =>
    if link.world.logModel slot = some .tracing then
      some (.error, Report.line ⟨link.text, config.source⟩)
    else none

theorem bind_delivery (link : Link) : link.delivery.bind tracedReport? = link.line? := by
  cases found : link.world.consoles.row link.console with
  | host capabilities calls =>
    rw [delivery_of_host found]
    simp only [line?, found]
    rfl
  | fallback slot config =>
    rw [delivery_of_fallback found]
    simp only [line?, found]
    cases link.world.logModel slot with
    | none => rfl
    | some model => cases model <;> rfl

theorem map_event? (link : Link) :
    (link.event?.map fun event => (event.severity, event.text [])) = link.line? := by
  rw [← bind_delivery, event?, Option.map_bind]
  congr 1
  funext delivery
  obtain ⟨model, report⟩ := delivery
  refine (Occurrence.delivered model report).map_traced?.trans ?_
  cases model <;> rfl

/-- A call that reports nothing, or to a log in memory, is neither traced nor leads to
another one. -/
theorem quiet_of_memory {link : Link}
    (plain : ∀ slot config, link.world.consoles.row link.console = .fallback slot config ->
      link.world.logModel slot = none ∨ ∃ log, link.world.logModel slot = some (.memory log)) :
    link.next = none ∧ link.line? = none := by
  rw [← bind_delivery]
  cases found : link.world.consoles.row link.console with
  | host capabilities calls =>
    have silent := delivery_of_host found
    exact ⟨next_of_silence silent, by rw [silent]; rfl⟩
  | fallback slot config =>
    have delivers := delivery_of_fallback found
    obtain nothing | ⟨log, memory⟩ := plain slot config found
    · rw [nothing] at delivers
      exact ⟨next_of_silence delivers, by rw [delivers]; rfl⟩
    · rw [memory] at delivers
      exact ⟨next_of_delivery delivers, by rw [delivers]; rfl⟩

theorem lines_flatMap_occurrences (links : List Link) :
    (links.flatMap occurrences).filterMap Occurrence.line? = links.filterMap line? := by
  rw [← lines_traced, traced_flatMap_occurrences, List.map_filterMap]
  exact congrArg (List.filterMap · _) (funext map_event?)

end Link

namespace Session

variable {session : Session}

/-- What is traced of an outcome: the severity and the text of each event, in order. -/
def Outcome.lines (outcome : Outcome) : List (Severity × String) :=
  (traced outcome.occurrences).map fun event => (event.severity, event.text [])

theorem Outcome.lines_eq (outcome : Outcome) :
    outcome.lines = outcome.occurrences.filterMap Occurrence.line? :=
  lines_traced outcome.occurrences

/-- What is traced of an entry. -/
def Entry.line? : Entry -> Option (Severity × String)
  | .happened occurrence => occurrence.line?
  | _ => none

/-- What the host does to logs itself is not traced. -/
theorem lines_deeds (session : Session) (step : Step) :
    (session.deeds step).filterMap Entry.line? = [] := by
  unfold deeds
  split
  · split <;> rfl
  · split <;> rfl
  · rfl

theorem lines_step (session : Session) (step : Step) :
    (session.step step).2.lines = (session.entries step).filterMap Entry.line? := by
  rw [entries, List.filterMap_append, lines_deeds, List.nil_append, List.filterMap_map,
    Outcome.lines_eq]
  rfl

theorem lines_run (session : Session) (steps : List Step) :
    (session.run steps).2.flatMap Outcome.lines =
      (session.chronicle steps).filterMap Entry.line? := by
  induction steps generalizing session with
  | nil => rfl
  | cons step steps ih =>
    rw [chronicle, List.filterMap_append, ← lines_step, ← ih]
    rfl

/-- The errors among what is traced of some entries are the reports that they deliver to
error logs that trace. -/
theorem errors_lines (entries : List Entry) :
    (entries.filterMap Entry.line?).filter (fun line => line.1 = .error) =
      (received entries).filterMap tracedReport? := by
  rw [received, List.filter_filterMap, List.filterMap_filterMap]
  congr 1
  funext entry
  cases entry with
  | reported log report => rfl
  | cleared log => rfl
  | happened occurrence =>
    cases occurrence with
    | delivered model report => cases model <;> rfl
    | offered environment outcome => cases outcome <;> rfl
    | _ => rfl

/-- What is traced but is no error is about an installation. -/
theorem offer_of_line {told : List Entry} {entry : Entry} {line : Severity × String}
    (put : entry ∈ told) (shown : entry.line? = some line) (plain : line.1 ≠ .error) :
    ∃ environment outcome, Entry.happened (.offered environment outcome) ∈ told ∧
      line = (.debug, outcome.message) := by
  cases entry with
  | reported log report => cases shown
  | cleared log => cases shown
  | happened occurrence =>
    cases occurrence with
    | delivered model report =>
      cases model with
      | tracing =>
        cases shown
        exact (plain rfl).elim
      | _ => cases shown
    | offered environment outcome =>
      refine ⟨environment, outcome, put, ?_⟩
      cases outcome <;> exact (Option.some.inj shown).symm
    | _ => cases shown

/-- What is traced of the step that is done at this moment. -/
structure Traces (session : Session) : Prop where
  /-- An installation is debug output and says what came of it. -/
  install : ∀ name environment source, session.Knows name environment ->
    let outcome := (session.step (.install name source)).2
    match session.world.boundConsole environment with
    | none =>
      outcome.reply = .ok (.installation .installed) ∧
        outcome.lines = [(.debug, "installed console shim")]
    | some _ =>
      outcome.reply = .ok (.installation .existing) ∧
        outcome.lines = [(.debug, "console already present, leaving it in place")]
  /-- A call is traced by the errors of the calls that it leads to, in order. -/
  call : ∀ step target method values arguments console, Calls step target method values ->
    HostValue.toArguments values = .ok arguments ->
    session.consoleOf target = .ok (some console) ->
    ∃ links, Chain ⟨session.world, console, method, arguments⟩ links
        (session.step step).1.world ∧
      (session.step step).2.lines = links.filterMap Link.line?
  /-- A call that reports nothing, or to a log in memory, is not traced. -/
  silent : ∀ step target method values arguments console, Calls step target method values ->
    HostValue.toArguments values = .ok arguments ->
    session.consoleOf target = .ok (some console) ->
    (∀ slot config, session.world.consoles.row console = .fallback slot config ->
      session.world.logModel slot = none ∨
        ∃ log, session.world.logModel slot = some (.memory log)) ->
    (session.step step).2.lines = []
  /-- Nothing else is traced. The threads of a race trace for themselves, outside of the
  session. -/
  others : ∀ step,
    (∀ name source environment, step = .install name source -> ¬session.Knows name environment) ->
    (∀ target method values arguments console, Calls step target method values ->
      HostValue.toArguments values = .ok arguments ->
      session.consoleOf target ≠ .ok (some console)) ->
    (session.step step).2.lines = []

theorem lines_of_calls {step : Step} {target : ConsoleTarget} {method : Method}
    {values : List HostValue} {arguments : List Argument} {console : ConsoleRef}
    (calls : Calls step target method values)
    (converts : HostValue.toArguments values = .ok arguments)
    (means : session.consoleOf target = .ok (some console)) :
    ∃ links, Chain ⟨session.world, console, method, arguments⟩ links
        (session.step step).1.world ∧
      (session.step step).2.lines = links.filterMap Link.line? := by
  obtain ⟨links, chain, happened⟩ := session.world.call_follows_chain console method arguments
  rw [step_of_calls calls converts means]
  refine ⟨links, chain, ?_⟩
  rw [Outcome.lines_eq, happened, Link.lines_flatMap_occurrences]

theorem traces (session : Session) : Traces session where
  install := by
    intro name environment source known
    have found : session.environments.find name = .ok environment := known
    cases there : session.world.boundConsole environment with
    | none =>
      simp only [Session.step, advance, found, bind_ok, pure_eq_ok, World.install_of_free there]
      exact ⟨trivial, rfl⟩
    | some console =>
      simp only [Session.step, advance, found, bind_ok, pure_eq_ok, World.install_of_bound there]
      exact ⟨trivial, rfl⟩
  call := fun _ _ _ _ _ _ => lines_of_calls
  silent := by
    intro step target method values arguments console calls converts means plain
    obtain ⟨links, chain, lines⟩ := lines_of_calls calls converts means
    let first : Link := ⟨session.world, console, method, arguments⟩
    obtain ⟨ends, nothing⟩ := @Link.quiet_of_memory first plain
    obtain ⟨rfl, -⟩ := chain.unique (.single ends rfl)
    rw [lines, List.filterMap_cons, nothing]
    rfl
  others := by
    intro step noInstallation noCall
    rw [Outcome.lines_eq]
    obtain ⟨next, move, done⟩ | ⟨failure, done⟩ := session.step_cases step
    · rw [done]
      cases move with
      | install source found => exact (noInstallation _ source _ rfl found).elim
      | installExisting source found => exact (noInstallation _ source _ rfl found).elim
      | call calls converts means => exact (noCall _ _ _ _ _ calls converts means).elim
      | raceInstall | raceExisting => exact lines_race _ _
      | _ => rfl
    · rw [done]
      rfl

/-- Only installations and reports to tracing logs are traced. In every step of every run,
an installation is traced once, as debug output; a call is traced by one error for each
report that it, or a call in consequence, makes to an error log that traces, in order, with
the message and the source tag of the console that made it; and nothing else is traced,
whatever it is. So the errors traced over a run are exactly the messages that are owed to
tracing logs, and everything else that is traced is about an installation. A trace is shown
by the methods of its severities. -/
theorem only_installs_and_reports_are_traced (steps : List Step) :
    let session := (({} : Session).run steps).1
    let told := ({} : Session).chronicle steps
    let lines := (({} : Session).run steps).2.flatMap Outcome.lines
    Traces session ∧
      (lines.filter fun line => line.1 = .error) =
        (owed session.world [] told).filterMap tracedReport? ∧
      (∀ line ∈ lines, line.1 ≠ .error -> ∃ environment outcome,
        Entry.happened (.offered environment outcome) ∈ told ∧
          line = (.debug, outcome.message)) ∧
      ∀ outcome : Outcome,
        outcome.trace = outcome.lines.map fun (severity, text) => (severity.method, text) := by
  intro session told lines
  have start : ∀ slot, ({} : Session).world.application slot = application slot [] := fun _ => rfl
  obtain ⟨delivers, -⟩ := run_forwards closed_empty steps (.refl _) start
  have lines_eq : lines = told.filterMap Entry.line? := lines_run {} steps
  refine ⟨session.traces, ?_, ?_, fun outcome => ?_⟩
  · rw [lines_eq, errors_lines, delivers]
  · intro line traced plain
    rw [lines_eq] at traced
    obtain ⟨entry, put, shown⟩ := List.mem_filterMap.1 traced
    exact offer_of_line put shown plain
  · rw [Outcome.trace, Outcome.lines, List.map_map]
    rfl

/-- An error log passes the empty message of one console on to another one, whose
application traces. The empty message is traced when it is reported there itself. -/
theorem only_installs_and_reports_are_traced_nested :
    let setup : List Step := [.newLog "log" none, .newEnvironment "page",
      .install "page" (some "worker"), .newApplication "traced" .tracing,
      .setApplication "traced" (.environment "page"), .newSlot "slot",
      .newFallback "other" (.slot "slot") none,
      .newApplication "first" (.echoing "log" (.environment "page") 1),
      .setApplication "first" (.slot "slot")]
    let session := (({} : Session).run setup).1
    let call : Step := .call (.console "other") "warn" []
    let steps := setup ++ [call, .invoke (.environment "page") .debug [], .install "page" none]
    let lines := (({} : Session).run steps).2.flatMap Outcome.lines
    (∃ links, Chain ⟨session.world, ⟨1⟩, .warn, []⟩ links (session.step call).1.world ∧
        (session.step call).2.lines = links.filterMap Link.line?) ∧
      (session.step call).2.lines = [(.error, "echo  source=worker")] ∧
      (session.step (.setApplication "first" (.environment "page"))).2.lines = [] ∧
      (lines.filter fun line => line.1 = .error) =
        [(.error, "echo  source=worker"), (.error, "source=worker")] ∧
      (∃ environment outcome, Entry.happened (.offered environment outcome) ∈
          ({} : Session).chronicle steps ∧
        ((.debug, "console already present, leaving it in place") : Severity × String) =
          (.debug, outcome.message)) := by
  intro setup session call steps lines
  obtain ⟨traces, -, -, -⟩ := only_installs_and_reports_are_traced setup
  obtain ⟨-, -, offers, -⟩ := only_installs_and_reports_are_traced steps
  have means : session.consoleOf (.console "other") = .ok (some ⟨1⟩) := rfl
  refine ⟨?_, by decide +kernel, ?_, by decide +kernel, ?_⟩
  · exact traces.call call _ _ _ _ _ (.named rfl) rfl means
  · exact traces.others _ (fun _ _ _ same => nomatch same) (fun _ _ _ _ _ calls => nomatch calls)
  · exact offers _ (by decide +kernel) (by decide)

end Session
end ScriptConsole
