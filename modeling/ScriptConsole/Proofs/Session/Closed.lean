import ScriptConsole.Proofs.Session.Growth
import ScriptConsole.Proofs.World.Closed

/-!
# Sessions without dangling references

Every name of a session is that of an object that is there, and its world is closed.
A session starts so, and no step changes it.
-/

namespace ScriptConsole

namespace Names

variable {kind : Resource} {α : Type} [Inhabited α]

/-- All names are of objects of the table. -/
def Within (names : Names kind) (table : Table kind α) : Prop :=
  ∀ name ref, names.find name = .ok ref -> table.Has ref

omit [Inhabited α] in
theorem Within.add {names : Names kind} {table : Table kind α} (within : names.Within table)
    (id : String) {ref : Ref kind} (there : table.Has ref) : (names.add id ref).Within table := by
  intro name found holds
  simp only [Names.find, Names.add, List.lookup_cons] at holds
  split at holds
  · next found' here =>
    split at here
    · cases here
      cases holds
      exact there
    · refine within name found ?_
      simp only [Names.find, here, holds]
  · cases holds

theorem Within.mono {β : Type} {view : α -> β} {names : Names kind} {before after : Table kind α}
    (within : names.Within before) (keeps : before.Keeps view after) : names.Within after :=
  fun name ref found => (keeps ref (within name ref found)).1

end Names

namespace Session

/-- Every name is of an object that is there, and no object refers to one that is
not. -/
structure Closed (session : Session) : Prop where
  world : session.world.Closed
  slots : session.slots.Within session.world.slots
  logs : session.logs.Within session.world.logs
  applications : session.applications.Within session.world.applications
  consoles : session.consoles.Within session.world.consoles
  environments : session.environments.Within session.world.environments

theorem closed_empty : Closed {} where
  world := World.closed_empty
  slots := by
    intro name ref found
    cases found
  logs := by
    intro name ref found
    cases found
  applications := by
    intro name ref found
    cases found
  consoles := by
    intro name ref found
    cases found
  environments := by
    intro name ref found
    cases found

namespace Closed

variable {session : Session}

theorem has_slot (closed : session.Closed) {target : SlotTarget} {slot : SlotRef}
    (means : session.slotOf target = .ok slot) : session.world.slots.Has slot := by
  cases target with
  | slot name => exact closed.slots name slot means
  | environment name =>
    simp only [slotOf, bind_eq_ok_iff, pure_eq_ok_iff] at means
    obtain ⟨environment, found, rfl⟩ := means
    exact closed.world.environment environment (closed.environments name environment found)

theorem has_console (closed : session.Closed) {target : ConsoleTarget} {console : ConsoleRef}
    (means : session.consoleOf target = .ok (some console)) :
    session.world.consoles.Has console := by
  cases target with
  | console name =>
    simp only [consoleOf, bind_eq_ok_iff, pure_eq_ok_iff] at means
    obtain ⟨found, known, same⟩ := means
    cases same
    exact closed.consoles name console known
  | environment name =>
    simp only [consoleOf, bind_eq_ok_iff, pure_eq_ok_iff] at means
    obtain ⟨environment, _, there⟩ := means
    exact closed.world.bound environment console there

/-- The model that an application is made with is known. -/
theorem known_of_makes (closed : session.Closed) {kind : NewApplication}
    {logs : Option LogModel} (makes : session.Makes kind logs) {model : LogModel}
    (exposes : logs = some model) : model.Known session.world := by
  cases makes with
  | memory found =>
    cases exposes
    exact closed.logs _ _ found
  | bare => cases exposes
  | tracing =>
    cases exposes
    trivial
  | clearing found means =>
    cases exposes
    exact ⟨closed.logs _ _ found, closed.has_slot means, fun _ follows => by cases follows⟩
  | rebinding found means follows =>
    cases exposes
    refine ⟨closed.logs _ _ found, closed.has_slot means, fun _ same => ?_⟩
    cases same
    exact closed.applications _ _ follows

/-- A session stays closed in another world that has grown from its own. -/
theorem withWorld (closed : session.Closed) {world : World} (grows : session.world.Grows world)
    (still : world.Closed) : (session.withWorld world).Closed where
  world := still
  slots := closed.slots.mono grows.slots
  logs := closed.logs.mono grows.logs
  applications := closed.applications.mono grows.applications
  consoles := closed.consoles.mono grows.consoles
  environments := closed.environments.mono grows.environments

theorem addSlotName (closed : session.Closed) (id : String) {slot : SlotRef}
    (there : session.world.slots.Has slot) :
    Closed { session with slots := session.slots.add id slot } :=
  { closed with slots := closed.slots.add id there }

theorem addLogName (closed : session.Closed) (id : String) {log : LogRef}
    (there : session.world.logs.Has log) :
    Closed { session with logs := session.logs.add id log } :=
  { closed with logs := closed.logs.add id there }

theorem addConsoleName (closed : session.Closed) (id : String) {console : ConsoleRef}
    (there : session.world.consoles.Has console) :
    Closed { session with consoles := session.consoles.add id console } :=
  { closed with consoles := closed.consoles.add id there }

theorem addConsole (closed : session.Closed) (id : String) (console : Console)
    (still : (session.world.addConsole console).1.Closed) :
    (session.addConsole id console).session.Closed :=
  (closed.withWorld (World.grows_addConsole _ _) still).addConsoleName id
    (Table.has_put_same _ _ _)

theorem addApplication (closed : session.Closed) (id : String) {logs : Option LogModel}
    (known : ∀ model, logs = some model -> model.Known session.world) :
    (session.addApplication id logs).session.Closed :=
  let still := closed.withWorld (World.grows_addApplication _ _)
    (closed.world.addApplication known)
  { still with applications := still.applications.add id (Table.has_put_same _ _ _) }

theorem addEnvironment (closed : session.Closed) (id : String) {console : Option ConsoleRef}
    (there : ∀ bound, console = some bound -> session.world.consoles.Has bound) :
    (session.addEnvironment id console).session.Closed :=
  let still := closed.withWorld (World.grows_addEnvironment _ console)
    (closed.world.addEnvironment there)
  { still with environments := still.environments.add id (Table.has_put_same _ _ _) }

theorem install (closed : session.Closed) {name : String} {environment : EnvironmentRef}
    (found : session.environments.find name = .ok environment) (config : Config) :
    ((session.withWorld (session.world.install environment config).1).nameInstalled name
      (session.world.install environment config).2.1).Closed := by
  have made := closed.environments name environment found
  have still := closed.withWorld (World.grows_install _ environment config)
    (closed.world.install made config)
  exact still.addConsoleName _ (still.world.bound environment _ World.boundConsole_install)

end Closed

theorem Move.closed {session : Session} {step : Step} {next : Advance}
    (move : Move session step next) (closed : session.Closed) : next.session.Closed := by
  cases move with
  | newEnvironment id => exact closed.addEnvironment id (fun _ none => by cases none)
  | newEnvironmentWith id found =>
    refine closed.addEnvironment id (fun bound same => ?_)
    cases same
    exact closed.consoles _ _ found
  | newHost id capabilities => exact closed.addConsole id _ (closed.world.addHost capabilities)
  | newFallback id source means =>
    exact closed.addConsole id _ (closed.world.addFallback _ (closed.has_slot means))
  | newSlot id =>
    exact (closed.withWorld (World.grows_addSlot _) closed.world.addSlot).addSlotName id
      (Table.has_put_same _ _ _)
  | shareSlot id means => exact closed.addSlotName id (closed.has_slot means)
  | newLog id limit =>
    exact (closed.withWorld (World.grows_addLog _ limit) (closed.world.addLog limit)).addLogName id
      (Table.has_put_same _ _ _)
  | shareLog id found => exact closed.addLogName id (closed.logs _ _ found)
  | newApplication id makes =>
    exact closed.addApplication id (fun model exposes => closed.known_of_makes makes exposes)
  | newEcho id times found means =>
    have still := closed.withWorld (World.grows_addEcho _ times) (closed.world.addEcho times)
    refine still.addApplication id (fun model same => ?_)
    cases same
    exact ⟨closed.logs _ _ found, closed.has_console means, Table.has_put_same _ _ _⟩
  | setApplication found means =>
    exact closed.withWorld (World.grows_setApplication _ _ _)
      (closed.world.setApplication _ (closed.applications _ _ found))
  | clearApplication means =>
    exact closed.withWorld (World.grows_clearApplication _ _) (closed.world.clearApplication _)
  | install source found free made => exact made ▸ closed.install found _
  | raceInstall others found free made => exact made ▸ closed.install found _
  | setConsole found known free =>
    exact closed.withWorld (World.grows_bindConsole _ _ free)
      (closed.world.bindConsole (closed.environments _ _ found) free (closed.consoles _ _ known))
  | call calls converts means =>
    exact closed.withWorld (World.grows_call _ _ _ _) (closed.world.call _ _ _)
  | takeCalls found =>
    exact closed.withWorld (World.grows_takeCalls _ _) (closed.world.takeCalls _)
  | logError report found =>
    exact closed.withWorld (World.grows_record _ _ _) (closed.world.record _ _)
  | clearLog found =>
    exact closed.withWorld (World.grows_clearLog _ _) (closed.world.clearLog _)
  | newEchoNowhere | installExisting | raceExisting | callNowhere | look => exact closed

theorem step_closed {session : Session} (closed : session.Closed) (step : Step) :
    (session.step step).1.Closed := by
  obtain ⟨next, move, done⟩ | ⟨failure, done⟩ := session.step_cases step
  · rw [done]
    exact move.closed closed
  · rw [done]
    exact closed

theorem run_closed {session : Session} (closed : session.Closed) (steps : List Step) :
    (session.run steps).1.Closed := by
  induction steps generalizing session with
  | nil => exact closed
  | cons step steps ih => exact ih (step_closed closed step)

end Session

end ScriptConsole
