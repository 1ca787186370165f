import ScriptConsole.Proofs.Session.Forwarding
import ScriptConsole.Proofs.Session.Handles

/-!
# Forwarding refines its chronicle

The parts are put together here: what each step puts down, that calls without a
delivery leave no trace, that a binding may come before or after the console it is for,
and that every error log is given exactly what the chronicle owes it.
-/

namespace ScriptConsole

open Chronicle

/-- A call of a fallback console whose slot leads to no error log leaves the world as it
is. -/
theorem World.call_of_silence {world : World} {console : ConsoleRef} {slot : SlotRef}
    {config : Config} (found : world.consoles.row console = .fallback slot config)
    (silent : world.logModel slot = none) (method : Method) (arguments : List Argument) :
    world.call console method arguments =
      (world, [.called console method (Argument.join arguments)]) := by
  unfold call
  simp only [arrive, found, silent]

namespace Session

variable {session : Session}

/-! ## Bindings and consoles -/

/-- The step binds an application or clears a slot. -/
def Step.rebinds : Step -> Bool
  | .setApplication _ _ | .clearApplication _ => true
  | _ => false

/-- The step makes a fallback console, in an environment or by itself. -/
def Step.makesFallback : Step -> Bool
  | .newFallback _ _ _ | .install _ _ | .raceInstall _ _ => true
  | _ => false

/-- The slot that a step writes to, and what it puts there. -/
def writes? (session : Session) : Step -> Option (SlotRef × Option ApplicationRef)
  | .setApplication application target =>
    match session.applications.find application, session.slotOf target with
    | .ok application, .ok slot => some (slot, some application)
    | _, _ => none
  | .clearApplication target =>
    match session.slotOf target with
    | .ok slot => some (slot, none)
    | .error _ => none
  | _ => none

/-- The session with something else in a slot, if it is told so. -/
def writing (session : Session) : Option (SlotRef × Option ApplicationRef) -> Session
  | some (slot, application) =>
    session.withWorld { session.world with slots := session.world.slots.put slot application }
  | none => session

/-- A fallback console to be made: its name, its slot, its settings, and the environment
that it is bound in. -/
structure Making where
  name : String
  slot : SlotRef
  config : Config
  environment : Option EnvironmentRef

/-- The fallback console that an installation makes, which is none if a console is
bound. -/
def installs? (session : Session) (name : String) (config : Config) : Option Making :=
  match session.environments.find name with
  | .ok environment =>
    match session.world.boundConsole environment with
    | none =>
      some ⟨installedName name, session.world.environmentSlot environment, config, environment⟩
    | some _ => none
  | .error _ => none

/-- The fallback console that a step makes. -/
def makes? (session : Session) : Step -> Option Making
  | .newFallback id target source =>
    match session.slotOf target with
    | .ok slot => some ⟨id, slot, configOf source, none⟩
    | .error _ => none
  | .install name source => session.installs? name (configOf source)
  | .raceInstall _ 0 => none
  | .raceInstall name (_ + 1) => session.installs? name .default
  | _ => none

/-- The session with a new fallback console, if it is told so. -/
def making (session : Session) : Option Making -> Session
  | some ⟨name, slot, config, environment⟩ =>
    let (world, console) := session.world.addConsole (.fallback slot config)
    { session with
      world :=
        match environment with
        | some environment => world.bindConsole environment console
        | none => world
      consoles := session.consoles.add name console }
  | none => session

theorem step_of_rebinds {step : Step} (rebinds : step.rebinds = true) :
    (session.step step).1 = session.writing (session.writes? step) := by
  cases step with
  | setApplication name target =>
    cases found : session.applications.find name with
    | error failure =>
      simp [Session.step, advance, writing, writes?, found]
    | ok application =>
      cases means : session.slotOf target with
      | error failure =>
        simp [Session.step, advance, writing, writes?, found, means]
      | ok slot =>
        simp [Session.step, advance, writing, writes?, found, means, World.setApplication]
  | clearApplication target =>
    cases means : session.slotOf target with
    | error failure =>
      simp [Session.step, advance, writing, writes?, means]
    | ok slot =>
      simp [Session.step, advance, writing, writes?, means, World.clearApplication]
  | _ => cases rebinds

theorem step_of_makesFallback {step : Step} (makes : step.makesFallback = true) :
    (session.step step).1 = session.making (session.makes? step) := by
  cases step with
  | newFallback id target source =>
    cases means : session.slotOf target with
    | error failure => simp [Session.step, advance, making, makes?, means]
    | ok slot =>
      simp only [Session.step, advance, making, makes?, means, bind_ok, pure_eq_ok]
      rfl
  | install name source =>
    cases known : session.environments.find name with
    | error failure =>
      simp [Session.step, advance, making, makes?, installs?, known]
    | ok environment =>
      cases there : session.world.boundConsole environment with
      | some console =>
        simp only [Session.step, advance, making, makes?, installs?, known, there, bind_ok,
          pure_eq_ok, World.install_of_bound there]
        rfl
      | none =>
        simp only [Session.step, advance, making, makes?, installs?, known, there, bind_ok,
          pure_eq_ok, World.install_of_free there]
        rfl
  | raceInstall name threads =>
    cases known : session.environments.find name with
    | error failure =>
      cases threads <;>
        simp [Session.step, advance, making, makes?, installs?, known]
    | ok environment =>
      cases threads with
      | zero =>
        simp only [Session.step, advance, making, makes?, known, bind_ok, pure_eq_ok,
          World.raceInstall]
        rfl
      | succ others =>
        cases there : session.world.boundConsole environment with
        | some console =>
          simp only [Session.step, advance, making, makes?, installs?, known, there, bind_ok,
            pure_eq_ok, World.raceInstall_of_bound there, World.count_existing]
          rfl
        | none =>
          simp only [Session.step, advance, making, makes?, installs?, known, there, bind_ok,
            pure_eq_ok, World.raceInstall_of_free there, World.boundConsole_install,
            World.count_installed]
          simp only [World.install_of_free there]
          rfl
  | _ => cases makes

theorem makes?_writing (write : Option (SlotRef × Option ApplicationRef)) (step : Step) :
    (session.writing write).makes? step = session.makes? step := by
  cases write <;> rfl

/-- A new console changes neither the names of slots nor the slots of environments. -/
theorem slotOf_making (made : Option Making) (target : SlotTarget) :
    (session.making made).slotOf target = session.slotOf target := by
  cases made with
  | none => rfl
  | some made =>
    obtain ⟨name, slot, config, environment⟩ := made
    cases target with
    | slot name => rfl
    | environment name =>
      cases environment with
      | none => rfl
      | some environment =>
        simp only [slotOf, making, World.environmentSlot_bindConsole]
        rfl

theorem writes?_making (made : Option Making) (step : Step) :
    (session.making made).writes? step = session.writes? step := by
  cases step with
  | setApplication name target =>
    have same : (session.making made).applications = session.applications := by
      cases made <;> rfl
    simp only [writes?, slotOf_making, same]
  | clearApplication target => simp only [writes?, slotOf_making]
  | _ => rfl

theorem making_writing (made : Option Making) (write : Option (SlotRef × Option ApplicationRef)) :
    (session.writing write).making made = (session.making made).writing write := by
  cases write with
  | none => rfl
  | some change =>
    cases made with
    | none => rfl
    | some made =>
      obtain ⟨name, slot, config, environment⟩ := made
      cases environment <;> rfl

/-- It makes no difference to a session whether an application is bound, or a slot
cleared, before a fallback console is made or after. -/
theorem step_comm {making binding : Step} (makes : making.makesFallback = true)
    (rebinds : binding.rebinds = true) :
    ((session.step making).1.step binding).1 = ((session.step binding).1.step making).1 := by
  rw [step_of_rebinds rebinds, step_of_rebinds rebinds, step_of_makesFallback makes,
    step_of_makesFallback makes, writes?_making, makes?_writing, making_writing]

/-! ## What is put down -/

/-- The step binds, calls or reports: it puts down more than offers to an
environment. -/
def Step.speaks : Step -> Bool
  | .setApplication _ _ | .clearApplication _ | .call _ _ _ | .invoke _ _ _ | .logError _ _
  | .clearLog _ => true
  | _ => false

/-- What the steps put down that bind, call or report, at this moment. -/
structure Tells (session : Session) : Prop where
  setApplication : ∀ name target application slot,
    session.applications.find name = .ok application -> session.slotOf target = .ok slot ->
    session.entries (.setApplication name target) =
      [.happened (.bound slot application (session.world.application slot))]
  clearApplication : ∀ target slot, session.slotOf target = .ok slot ->
    session.entries (.clearApplication target) =
      [.happened (.unbound slot (session.world.application slot))]
  logError : ∀ name log report, session.logs.find name = .ok log ->
    session.entries (.logError name report) =
      [.reported log report, .happened (.delivered (.memory log) report)]
  clearLog : ∀ name log, session.logs.find name = .ok log ->
    session.entries (.clearLog name) = [.cleared log]
  /-- A call puts down itself, with its arguments joined, and after it the calls that are
  made in consequence. -/
  call : ∀ step target method values arguments console, Calls step target method values ->
    HostValue.toArguments values = .ok arguments ->
    session.consoleOf target = .ok (some console) ->
    ∃ links, Chain ⟨session.world, console, method, arguments⟩ links
        (session.step step).1.world ∧
      session.entries step = links.flatMap Link.entries
  others : ∀ step, step.speaks = false -> ∀ entry ∈ session.entries step,
    ∃ environment outcome, entry = .happened (.offered environment outcome) ∨
      entry = .happened (.offeredElsewhere environment outcome)

/-- A step that calls a console does what the call does to the world, and no more. -/
theorem step_of_calls {step : Step} {target : ConsoleTarget} {method : Method}
    {values : List HostValue} {arguments : List Argument} {console : ConsoleRef}
    (calls : Calls step target method values)
    (converts : HostValue.toArguments values = .ok arguments)
    (means : session.consoleOf target = .ok (some console)) :
    session.step step =
      (session.withWorld (session.world.call console method arguments).1,
        ⟨.ok .nothing, (session.world.call console method arguments).2⟩) := by
  have done : session.callMethod target method values = .ok
      { session := session.withWorld (session.world.call console method arguments).1
        reply := .nothing
        occurrences := (session.world.call console method arguments).2 } := by
    simp only [callMethod, converts, means, mapError_ok, bind_ok, pure_eq_ok]
  cases calls with
  | named known =>
    simp only [Session.step, advance, known, mapError_ok, bind_ok, done]
  | direct => simp only [Session.step, advance, done]

theorem entries_of_calls {step : Step} {target : ConsoleTarget} {method : Method}
    {values : List HostValue} {arguments : List Argument} {console : ConsoleRef}
    (calls : Calls step target method values)
    (converts : HostValue.toArguments values = .ok arguments)
    (means : session.consoleOf target = .ok (some console)) :
    session.entries step = (session.world.call console method arguments).2.map .happened := by
  have deeds_eq : session.deeds step = [] := by cases calls <;> rfl
  rw [entries, deeds_eq, step_of_calls calls converts means, List.nil_append]

/-- All that is put down about a step that does not speak are offers. -/
theorem Move.offers {step : Step} {next : Advance} (move : Move session step next)
    (quiet : step.speaks = false) {occurrence : Occurrence}
    (happens : occurrence ∈ next.occurrences) :
    ∃ environment outcome, occurrence = .offered environment outcome ∨
      occurrence = .offeredElsewhere environment outcome := by
  cases move with
  | install | installExisting => exact ⟨_, _, .inl (List.mem_singleton.1 happens)⟩
  | raceInstall | raceExisting =>
    obtain ⟨outcome, -, rfl⟩ := List.mem_map.1 happens
    exact ⟨_, outcome, .inr rfl⟩
  | setApplication | clearApplication | logError => cases quiet
  | call calls => cases calls <;> cases quiet
  | _ => cases happens

theorem tells (session : Session) : Tells session where
  setApplication := by
    intro name target application slot found means
    simp [entries, deeds, Session.step, advance, found, means]
  clearApplication := by
    intro target slot means
    simp [entries, deeds, Session.step, advance, means]
  logError := by
    intro name log report found
    simp [entries, deeds, Session.step, advance, found]
  clearLog := by
    intro name log found
    simp [entries, deeds, Session.step, advance, found]
  call := by
    intro step target method values arguments console calls converts means
    obtain ⟨links, chain, happened⟩ := session.world.call_follows_chain console method arguments
    refine ⟨links, ?_, ?_⟩
    · rw [step_of_calls calls converts means]
      exact chain
    · rw [entries_of_calls calls converts means, happened, List.map_flatMap]
      rfl
  others := by
    intro step quiet entry put
    have deeds_eq : session.deeds step = [] := by cases step <;> first | rfl | cases quiet
    rw [entries, deeds_eq, List.nil_append] at put
    obtain ⟨occurrence, happens, rfl⟩ := List.mem_map.1 put
    obtain ⟨next, move, done⟩ | ⟨failure, done⟩ := session.step_cases step
    · rw [done] at happens
      obtain ⟨environment, outcome, rfl | rfl⟩ := move.offers quiet happens
      · exact ⟨environment, outcome, .inl rfl⟩
      · exact ⟨environment, outcome, .inr rfl⟩
    · rw [done] at happens
      cases happens

/-! ## The whole -/

/-- Calls without a delivery, at this moment: of a fallback console whose slot leads to
no error log. Nothing changes and nothing is delivered, and whatever is done afterwards
comes out as if the call had not been made. -/
def IgnoresSilentCalls (session : Session) : Prop :=
  ∀ step target method values arguments console slot config,
    Calls step target method values -> HostValue.toArguments values = .ok arguments ->
    session.consoleOf target = .ok (some console) ->
    session.world.consoles.row console = .fallback slot config ->
    session.world.logModel slot = none ->
      session.step step =
          (session, ⟨.ok .nothing, [.called console method (Argument.join arguments)]⟩) ∧
        ∀ rest, (session.run (step :: rest)).1 = (session.run rest).1 ∧
          received (session.chronicle (step :: rest)) = received (session.chronicle rest)

theorem ignoresSilentCalls (session : Session) : IgnoresSilentCalls session := by
  intro step target method values arguments console slot config calls converts means found silent
  have nothing := World.call_of_silence found silent method arguments
  have done := step_of_calls calls converts means
  rw [nothing] at done
  refine ⟨done, fun rest => ⟨?_, ?_⟩⟩
  · simp only [run, done]
    rfl
  · rw [chronicle, received_append, entries_of_calls calls converts means, nothing, done]
    rfl

/-- Forwarding refines its chronicle. After every run, every error log was given exactly
what the chronicle owes it, in order, and the logs and the slots are as the chronicle
tells. What is put down about a step is what the step does; a handle is of the slot it
was made for; silent calls leave no trace; and an application may be bound before or
after the console that reports to it is made. -/
theorem forwarding_follows_chronicle (steps : List Step) :
    let session := (({} : Session).run steps).1
    let told := ({} : Session).chronicle steps
    received told = owed session.world [] told ∧
      (∀ log, session.world.logs.row log =
        kept log { limit := (session.world.logs.row log).limit } told) ∧
      (∀ slot, session.world.application slot = application slot told) ∧
      Tells session ∧ Aliases session ∧ IgnoresSilentCalls session ∧
      ∀ making binding, making.makesFallback = true -> binding.rebinds = true ->
        ((session.step making).1.step binding).1 = ((session.step binding).1.step making).1 := by
  intro session told
  have start : ∀ slot, ({} : Session).world.application slot = application slot [] := fun _ => rfl
  obtain ⟨delivers, accounts⟩ := run_forwards closed_empty steps (.refl _) start
  refine ⟨delivers, accounts.log, accounts.slot, session.tells,
    aliases (run_closed closed_empty steps) (run_named named_empty steps),
    session.ignoresSilentCalls, fun making binding makes rebinds => step_comm makes rebinds⟩

/-- A shared slot gets its application through the one handle and is reported to through
the other: the call before is lost, the call after is not. The slot may be cleared before
or after another console is made for it. -/
theorem forwarding_follows_chronicle_shared :
    let steps : List Step := [.newLog "log" none, .newApplication "page" (.memory "log"),
      .newSlot "slot", .shareSlot "other" (.slot "slot"),
      .newFallback "console" (.slot "other") (some "worker"),
      .invoke (.console "console") .warn [.text "lost"], .setApplication "page" (.slot "slot"),
      .invoke (.console "console") .debug [.text "ready", .integer 3],
      .logError "log" ⟨"late", "host"⟩]
    let session := (({} : Session).run steps).1
    let told := ({} : Session).chronicle steps
    let making : Step := .newFallback "next" (.slot "slot") none
    let binding : Step := .clearApplication (.slot "other")
    received told = owed session.world [] told ∧
      received told = [(.memory ⟨0⟩, ⟨"ready 3", "worker"⟩), (.memory ⟨0⟩, ⟨"late", "host"⟩)] ∧
      ((session.step making).1.step binding).1 = ((session.step binding).1.step making).1 := by
  intro steps session told making binding
  have follows := forwarding_follows_chronicle steps
  refine ⟨follows.1, ?_, follows.2.2.2.2.2.2 making binding rfl rfl⟩
  decide +kernel

end Session

end ScriptConsole
