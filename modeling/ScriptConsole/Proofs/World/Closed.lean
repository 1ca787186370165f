import ScriptConsole.Proofs.World.Growth

/-!
# Worlds without dangling references

In a closed world every reference that an object holds is to an object that is there.
Whatever is done to a closed world with references to its objects leaves it closed, and
a chain of calls only ever gets to consoles that are there.
-/

namespace ScriptConsole

/-- Every object that the model refers to is in the world. -/
def LogModel.Known (world : World) : LogModel -> Prop
  | .memory log => world.logs.Has log
  | .tracing => True
  | .rebinding log slot next =>
    world.logs.Has log ∧ world.slots.Has slot ∧
      ∀ application, next = some application -> world.applications.Has application
  | .echoing log console echo =>
    world.logs.Has log ∧ world.consoles.Has console ∧ world.echoes.Has echo

theorem LogModel.Known.mono {world after : World} (grows : world.Grows after) {model : LogModel}
    (known : model.Known world) : model.Known after := by
  cases model with
  | memory log => exact (grows.logs log known).1
  | tracing => trivial
  | rebinding log slot next =>
    obtain ⟨logThere, slotThere, nextThere⟩ := known
    exact ⟨(grows.logs log logThere).1, (grows.slots slot slotThere).1,
      fun application follows => (grows.applications _ (nextThere application follows)).1⟩
  | echoing log console echo =>
    obtain ⟨logThere, consoleThere, echoThere⟩ := known
    exact ⟨(grows.logs log logThere).1, (grows.consoles console consoleThere).1,
      (grows.echoes echo echoThere).1⟩

namespace World

/-- Every reference in the world is to one of its objects. -/
structure Closed (world : World) : Prop where
  slot : ∀ slot application, world.application slot = some application ->
    world.applications.Has application
  application : ∀ application model, (world.applications.row application).logs = some model ->
    model.Known world
  console : ∀ console slot config, world.consoles.row console = .fallback slot config ->
    world.slots.Has slot
  environment : ∀ environment, world.environments.Has environment ->
    world.slots.Has (world.environmentSlot environment)
  bound : ∀ environment console, world.boundConsole environment = some console ->
    world.consoles.Has console

theorem closed_empty : Closed {} where
  slot := by
    intro slot application there
    cases there
  application := by
    intro application model there
    cases there
  console := by
    intro console slot config there
    cases there
  environment := by
    intro environment there
    cases there
  bound := by
    intro environment console there
    cases there

namespace Closed

variable {world after : World}

/-- The model of the application in a slot is known. -/
theorem logModel (closed : world.Closed) {slot : SlotRef} {model : LogModel}
    (resolved : world.logModel slot = some model) : model.Known world := by
  simp only [World.logModel, Option.bind_eq_bind, Option.bind_eq_some_iff] at resolved
  obtain ⟨application, _, exposes⟩ := resolved
  exact closed.application application model exposes

/-- A world that has grown is closed if whatever changed refers to what is there. -/
theorem of_grows (closed : world.Closed) (grows : world.Grows after)
    (slot : ∀ slot application, after.application slot = some application ->
      world.application slot = some application ∨ after.applications.Has application)
    (application : ∀ application, after.applications.row application =
      world.applications.row application ∨ ∀ model,
        (after.applications.row application).logs = some model -> model.Known after)
    (console : ∀ console slot config, after.consoles.row console = .fallback slot config ->
      world.consoles.row console = .fallback slot config ∨ after.slots.Has slot)
    (environment : ∀ environment, after.environments.Has environment ->
      world.environments.Has environment ∨ after.slots.Has (after.environmentSlot environment))
    (bound : ∀ environment console, after.boundConsole environment = some console ->
      world.boundConsole environment = some console ∨ after.consoles.Has console) :
    after.Closed where
  slot := by
    intro slotRef app there
    rcases slot slotRef app there with before | now
    · exact (grows.applications app (closed.slot _ _ before)).1
    · exact now
  application := by
    intro app model exposes
    rcases application app with same | now
    · rw [same] at exposes
      exact (closed.application app model exposes).mono grows
    · exact now model exposes
  console := by
    intro ref slotRef config found
    rcases console ref slotRef config found with before | now
    · exact (grows.slots slotRef (closed.console ref slotRef config before)).1
    · exact now
  environment := by
    intro ref there
    rcases environment ref there with before | now
    · have kept := (grows.environments ref before).2
      rw [World.environmentSlot, kept]
      exact (grows.slots _ (closed.environment ref before)).1
    · exact now
  bound := by
    intro ref consoleRef there
    rcases bound ref consoleRef there with before | now
    · exact (grows.consoles consoleRef (closed.bound ref consoleRef before)).1
    · exact now

/-- Nothing but echoes' budgets, logs and calls of host consoles differs. -/
theorem of_same (closed : world.Closed) (grows : world.Grows after)
    (slots : after.slots = world.slots) (applications : after.applications = world.applications)
    (console : ∀ console slot config, after.consoles.row console = .fallback slot config ->
      world.consoles.row console = .fallback slot config)
    (environments : after.environments = world.environments) : after.Closed := by
  refine closed.of_grows grows ?_ ?_ ?_ ?_ ?_
  · intro slot application there
    simp only [World.application, slots] at there
    exact .inl there
  · intro application
    exact .inl (by rw [applications])
  · exact fun _ _ _ found => .inl (console _ _ _ found)
  · intro environment there
    rw [environments] at there
    exact .inl there
  · intro environment bound there
    simp only [World.boundConsole, environments] at there
    exact .inl there

theorem setApplication (closed : world.Closed) (slot : SlotRef) {application : ApplicationRef}
    (there : world.applications.Has application) :
    (world.setApplication slot application).Closed := by
  refine closed.of_grows (world.grows_setApplication slot application) ?_ (fun _ => .inl rfl)
    (fun _ _ _ => .inl) (fun _ => .inl) (fun _ _ => .inl)
  intro other bound holds
  simp only [World.application, World.setApplication, Table.row_put] at holds
  split at holds
  · cases holds
    exact .inr there
  · exact .inl holds

theorem clearApplication (closed : world.Closed) (slot : SlotRef) :
    (world.clearApplication slot).Closed := by
  refine closed.of_grows (world.grows_clearApplication slot) ?_ (fun _ => .inl rfl)
    (fun _ _ _ => .inl) (fun _ => .inl) (fun _ _ => .inl)
  intro other bound holds
  simp only [World.application, World.clearApplication, Table.row_put] at holds
  split at holds
  · cases holds
  · exact .inl holds

theorem record (closed : world.Closed) (log : LogRef) (report : Report) :
    (world.record log report).Closed :=
  closed.of_same (world.grows_record log report) rfl rfl (fun _ _ _ => id) rfl

theorem clearLog (closed : world.Closed) (log : LogRef) :
    Closed { world with logs := world.logs.modify log MemoryLog.clear } :=
  closed.of_same (world.grows_clearLog log) rfl rfl (fun _ _ _ => id) rfl

theorem putEcho (closed : world.Closed) (echo : EchoRef) (left : Nat) :
    Closed { world with echoes := world.echoes.put echo left } :=
  closed.of_same (world.grows_putEcho echo left) rfl rfl (fun _ _ _ => id) rfl

theorem putHost (closed : world.Closed) {console : ConsoleRef} {capabilities : Capabilities}
    {calls later : List (Method × List Argument)}
    (found : world.consoles.row console = .host capabilities calls) :
    Closed { world with consoles := world.consoles.put console (.host capabilities later) } := by
  refine closed.of_same (world.grows_putHost found) rfl rfl ?_ rfl
  intro other slot config holds
  simp only [Table.row_put] at holds
  split at holds
  · cases holds
  · exact holds

theorem takeCalls (closed : world.Closed) (console : ConsoleRef) :
    (world.takeCalls console).1.Closed := by
  unfold World.takeCalls
  split
  · next found => exact closed.putHost found
  · exact closed

theorem addSlot (closed : world.Closed) : world.addSlot.1.Closed := by
  refine closed.of_grows world.grows_addSlot ?_ (fun _ => .inl rfl) (fun _ _ _ => .inl)
    (fun _ => .inl) (fun _ _ => .inl)
  intro slot application holds
  simp only [World.application, World.addSlot, Table.row_put] at holds
  split at holds
  · cases holds
  · exact .inl holds

theorem addLog (closed : world.Closed) (limit : Option Nat) : (world.addLog limit).1.Closed :=
  closed.of_same (world.grows_addLog limit) rfl rfl (fun _ _ _ => id) rfl

theorem addEcho (closed : world.Closed) (times : Nat) : (world.addEcho times).1.Closed :=
  closed.of_same (world.grows_addEcho times) rfl rfl (fun _ _ _ => id) rfl

theorem addApplication (closed : world.Closed) {logs : Option LogModel}
    (known : ∀ model, logs = some model -> model.Known world) :
    (world.addApplication { logs }).1.Closed := by
  have grows := world.grows_addApplication { logs }
  refine closed.of_grows grows (fun _ _ => .inl) ?_ (fun _ _ _ => .inl) (fun _ => .inl)
    (fun _ _ => .inl)
  intro application
  simp only [World.addApplication, Table.row_put]
  split
  · exact .inr fun model exposes => (known model exposes).mono grows
  · exact .inl rfl

theorem addHost (closed : world.Closed) (capabilities : Capabilities) :
    (world.addConsole (.host capabilities [])).1.Closed := by
  refine closed.of_same (world.grows_addConsole _) rfl rfl ?_ rfl
  intro console slot config holds
  simp only [World.addConsole, Table.row_put] at holds
  split at holds
  · cases holds
  · exact holds

theorem addFallback (closed : world.Closed) {slot : SlotRef} (config : Config)
    (there : world.slots.Has slot) : (world.addConsole (.fallback slot config)).1.Closed := by
  refine closed.of_grows (world.grows_addConsole _) (fun _ _ => .inl) (fun _ => .inl rfl) ?_
    (fun _ => .inl) (fun _ _ => .inl)
  intro console other settings holds
  simp only [World.addConsole, Table.row_put] at holds
  split at holds
  · cases holds
    exact .inr there
  · exact .inl holds

theorem addEnvironment (closed : world.Closed) {console : Option ConsoleRef}
    (there : ∀ bound, console = some bound -> world.consoles.Has bound) :
    (world.addEnvironment console).1.Closed := by
  refine closed.of_grows (world.grows_addEnvironment console) ?_ (fun _ => .inl rfl)
    (fun _ _ _ => .inl) ?_ ?_
  · intro slot application holds
    simp only [World.application, World.addEnvironment, World.addSlot, Table.row_put] at holds
    split at holds
    · cases holds
    · exact .inl holds
  · intro environment has
    rcases Table.has_put_fresh.1 has with before | rfl
    · exact .inl before
    · refine .inr ?_
      simp only [World.environmentSlot, World.addEnvironment, World.addSlot, Table.row_put_same]
      exact Table.has_put_same _ _ _
  · intro environment bound holds
    simp only [World.boundConsole, World.addEnvironment, World.addSlot, Table.row_put] at holds
    split at holds
    · exact .inr (there bound holds)
    · exact .inl holds

theorem bindConsole (closed : world.Closed) {environment : EnvironmentRef} {console : ConsoleRef}
    (made : world.environments.Has environment) (free : world.boundConsole environment = none)
    (there : world.consoles.Has console) : (world.bindConsole environment console).Closed := by
  refine closed.of_grows (world.grows_bindConsole console free) (fun _ _ => .inl)
    (fun _ => .inl rfl) (fun _ _ _ => .inl) ?_ ?_
  · intro other has
    exact .inl ((Table.has_put_of_has made).1 has)
  · intro other bound holds
    by_cases same : other = environment
    · subst same
      rw [boundConsole_bindConsole_same] at holds
      cases holds
      exact .inr there
    · rw [boundConsole_bindConsole_of_ne same] at holds
      exact .inl holds

theorem install (closed : world.Closed) {environment : EnvironmentRef}
    (made : world.environments.Has environment) (config : Config) :
    (world.install environment config).1.Closed := by
  cases free : world.boundConsole environment with
  | some console =>
    rw [install_of_bound free]
    exact closed
  | none =>
    rw [install_of_free free]
    exact (closed.addFallback config (closed.environment environment made)).bindConsole made free
      (Table.has_put_same _ _ _)

theorem receive (closed : world.Closed) {model : LogModel} (known : model.Known world)
    (report : Report) : (world.receive model report).world.Closed := by
  cases model with
  | memory log => exact closed.record log report
  | tracing => exact closed
  | rebinding log slot next =>
    cases next with
    | none => exact (closed.record log report).clearApplication slot
    | some next => exact (closed.record log report).setApplication slot (known.2.2 next rfl)
  | echoing log console echo =>
    simp only [World.receive]
    split
    · exact closed.record log report
    · exact (closed.record log report).putEcho echo _

end Closed

/-- A model goes on to no other console than one that it knows. -/
theorem has_next_of_receive {world : World} {model : LogModel} {report : Report}
    {console : ConsoleRef} (known : model.Known world)
    (goes : (world.receive model report).next = some console) : world.consoles.Has console := by
  cases model with
  | memory log => cases goes
  | tracing => cases goes
  | rebinding log slot next => cases next <;> cases goes
  | echoing log target echo =>
    simp only [receive] at goes
    split at goes
    · cases goes
    · cases goes
      exact known.2.1

end World

namespace Link

/-- The model that a call in a closed world delivers to is known there. -/
theorem known_of_delivery {link : Link} (closed : link.world.Closed) {model : LogModel}
    {report : Report} (delivers : link.delivery = some (model, report)) :
    model.Known link.world := by
  cases found : link.world.consoles.row link.console with
  | host capabilities calls =>
    rw [delivery_of_host found] at delivers
    cases delivers
  | fallback slot config =>
    rw [delivery_of_fallback found, Option.map_eq_some_iff] at delivers
    obtain ⟨resolved, logModel, pair⟩ := delivers
    cases pair
    exact closed.logModel logModel

theorem closed_after {link : Link} (closed : link.world.Closed) : link.after.Closed := by
  cases delivers : link.delivery with
  | some delivery =>
    rw [after, reception_of_delivery delivers]
    exact closed.receive (known_of_delivery closed delivers) _
  | none =>
    cases found : link.world.consoles.row link.console with
    | host capabilities calls =>
      rw [after, reception_of_host found]
      exact closed.putHost found
    | fallback slot config =>
      rw [after, reception_of_silence found delivers]
      exact closed

/-- The next call of a chain is of a console that is there. -/
theorem has_console_of_next {link following : Link} (closed : link.world.Closed)
    (goes : link.next = some following) : following.world.consoles.Has following.console := by
  cases delivers : link.delivery with
  | none =>
    rw [next_of_silence delivers] at goes
    cases goes
  | some delivery =>
    obtain ⟨model, report⟩ := delivery
    rw [next_of_delivery delivers, Option.map_eq_some_iff] at goes
    obtain ⟨console, goes, rfl⟩ := goes
    have there := World.has_next_of_receive (known_of_delivery closed delivers) goes
    exact ((link.world.grows_receive model report).consoles console there).1

end Link

theorem Chain.closed {link : Link} {links : List Link} {final : World}
    (chain : Chain link links final) (closed : link.world.Closed) : final.Closed := by
  induction chain with
  | @last link ends => exact Link.closed_after closed
  | @further link following links final goes rest ih =>
    apply ih
    rw [Link.world_of_next goes]
    exact Link.closed_after closed

theorem World.Closed.call {world : World} (closed : world.Closed) (console : ConsoleRef)
    (method : Method) (arguments : List Argument) :
    (world.call console method arguments).1.Closed := by
  obtain ⟨links, chain, _⟩ := world.call_follows_chain console method arguments
  exact chain.closed closed

end ScriptConsole
