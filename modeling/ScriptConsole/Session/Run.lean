import ScriptConsole.Session.Basic

/-!
# Runs of sessions

Each step of a session has an outcome: the reply, and what happened in the
world. A step that cannot be done changes nothing.
-/

namespace ScriptConsole.Session

/-- What comes of a step. -/
structure Outcome where
  reply : Except Failure Reply
  occurrences : List Occurrence

/-- The console calls by which a step's trace events are shown. No span is ever
entered here. -/
def Outcome.trace (outcome : Outcome) : List (Method × String) :=
  (traced outcome.occurrences).map fun event => (event.severity.method, event.text [])

/-- Do a step. -/
def advance (session : Session) : Step -> Except Failure Advance
  | .newEnvironment id => return session.addEnvironment id none
  | .newEnvironmentWith id console => do
    return session.addEnvironment id (some (<- session.consoles.find console))
  | .newHost id capabilities => return session.addConsole id (.host capabilities [])
  | .newFallback id target source => do
    return session.addConsole id (.fallback (<- session.slotOf target) (configOf source))
  | .newSlot id => do
    let (world, slot) := session.world.addSlot
    return { session := { session with world, slots := session.slots.add id slot },
             reply := .nothing }
  | .shareSlot id target => do
    let slot <- session.slotOf target
    return { session := { session with slots := session.slots.add id slot }, reply := .nothing }
  | .newLog id limit => do
    let (world, log) := session.world.addLog limit
    return { session := { session with world, logs := session.logs.add id log },
             reply := .nothing }
  | .shareLog id log => do
    let log <- session.logs.find log
    return { session := { session with logs := session.logs.add id log }, reply := .nothing }
  | .newApplication id application => session.newApplication id application
  | .setApplication application target => do
    let application <- session.applications.find application
    let slot <- session.slotOf target
    let previous := session.world.application slot
    return {
      session := session.withWorld (session.world.setApplication slot application)
      reply := .name (previous.bind session.applications.nameOf?)
      occurrences := [.bound slot application previous] }
  | .clearApplication target => do
    let slot <- session.slotOf target
    let previous := session.world.application slot
    return {
      session := session.withWorld (session.world.clearApplication slot)
      reply := .name (previous.bind session.applications.nameOf?)
      occurrences := [.unbound slot previous] }
  | .application target => do
    let current := session.world.application (<- session.slotOf target)
    return { session, reply := .name (current.bind session.applications.nameOf?) }
  | .hasLogModel target => do
    let model := session.world.logModel (<- session.slotOf target)
    return { session, reply := .truth model.isSome }
  | .hasLogs application => do
    let application <- session.applications.find application
    return { session,
             reply := .truth (session.world.applications.row application).logs.isSome }
  | .install name source => do
    let environment <- session.environments.find name
    let (world, console, outcome) := session.world.install environment (configOf source)
    let session := session.withWorld world
    return {
      session :=
        match outcome with
        | .installed => session.nameInstalled name console
        | .existing => session
      reply := .installation outcome
      occurrences := [.offered environment outcome] }
  | .raceInstall name threads => do
    let environment <- session.environments.find name
    let (world, outcomes) := session.world.raceInstall environment threads
    let session := session.withWorld world
    return {
      session :=
        match outcomes.count .installed, world.boundConsole environment with
        | _ + 1, some console => session.nameInstalled name console
        | _, _ => session
      reply := .count (outcomes.count .installed)
      occurrences := outcomes.map (.offeredElsewhere environment) }
  | .boundConsole environment => do
    let bound := session.world.boundConsole (<- session.environments.find environment)
    return { session, reply := .name (bound.bind session.consoles.nameOf?) }
  | .setConsole environment console => do
    let environment <- session.environments.find environment
    let console <- session.consoles.find console
    let world <- (session.world.setConsole environment console).mapError .setup
    return { session := session.withWorld world, reply := .done }
  | .call target method values => do
    let method <- (Method.ofName method).mapError .setup
    session.callMethod target method values
  | .invoke target method values => session.callMethod target method values
  | .takeCalls console => do
    let (world, calls) := session.world.takeCalls (<- session.consoles.find console)
    return { session := session.withWorld world, reply := .calls calls }
  | .logError log report => do
    let log <- session.logs.find log
    return {
      session := session.withWorld (session.world.record log report)
      reply := .nothing
      occurrences := [.delivered (.memory log) report] }
  | .entries log => do
    return { session, reply := .log (session.world.logs.row (<- session.logs.find log)) }
  | .errorsFrom log source => do
    let log := session.world.logs.row (<- session.logs.find log)
    return { session, reply := .reports (log.errorsFrom source) }
  | .clearLog log => do
    let log <- session.logs.find log
    let world := { session.world with logs := session.world.logs.modify log MemoryLog.clear }
    return { session := session.withWorld world, reply := .nothing }
  | .describeEnvironment environment => do
    let environment <- session.environments.find environment
    return { session, reply := .text (session.world.describeEnvironment environment) }
  | .describeSlot target => do
    return { session, reply := .text (session.world.describeSlot (<- session.slotOf target)) }
  | .describeFallback console => do
    let (slot, config) <- session.fallbackOf console
    return { session, reply := .text (session.world.describeFallback slot config) }
  | .source console => do
    let (_, config) <- session.fallbackOf console
    return { session, reply := .text config.source }

/-- Do a step, or stay where the session is if it cannot be done. -/
def step (session : Session) (step : Step) : Session × Outcome :=
  match session.advance step with
  | .ok next => (next.session, ⟨.ok next.reply, next.occurrences⟩)
  | .error failure => (session, ⟨.error failure, []⟩)

/-- Do some steps one after the other. -/
def run (session : Session) : List Step -> Session × List Outcome
  | [] => (session, [])
  | first :: rest =>
    let (session, outcome) := session.step first
    let (session, outcomes) := session.run rest
    (session, outcome :: outcomes)

end ScriptConsole.Session
