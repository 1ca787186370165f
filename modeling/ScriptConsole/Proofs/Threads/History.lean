import ScriptConsole.Proofs.MemoryLog.Window
import ScriptConsole.Proofs.Threads.Interleaving
import ScriptConsole.Proofs.World.Growth

/-!
# What the history of threads tells

The steps that were done are put down in one history. From it alone, and from the world at
the start, it can be told which application is in a slot (`bound`), what a call finds
(`resolved`), and which reports a log was given (`given`). `Tells` says that the state
agrees, and every step keeps it so.
-/

namespace ScriptConsole.Threads

/-- What is in a slot after a step. -/
def rebind (slot : SlotRef) (current : Option ApplicationRef) (event : Event) :
    Option ApplicationRef :=
  match event.deed with
  | .binds other application => if other = slot then some application else current
  | .clears other => if other = slot then none else current
  | .reports (.rebinding _ other next) _ => if other = slot then next else current
  | _ => current

/-- The application in a slot after some steps: the last one bound, unless the slot was
cleared since. -/
def bound (start : World) (slot : SlotRef) (told : List Event) : Option ApplicationRef :=
  told.foldl (rebind slot) (start.application slot)

/-- What a call finds after some steps: the error log of the application that is bound by
then, and what it is to report there. -/
def resolved (start : World) (told : List Event) (console : ConsoleRef) (text : String) :
    Option (LogModel × Report) :=
  match (start.consoles.row console).wiring? with
  | none => none
  | some (slot, config) =>
    ((bound start slot told).bind fun application =>
      (start.applications.row application).logs).map fun model => (model, ⟨text, config.source⟩)

namespace Event

/-- What is reported in a step, and to which error log. -/
def report? (event : Event) : Option (LogModel × Report) :=
  match event.deed with
  | .reports model report => some (model, report)
  | _ => none

/-- The report that a log is given in a step. -/
def gives? (log : LogRef) (event : Event) : Option Report :=
  match event.deed with
  | .reports model report => if model.log? = some log then some report else none
  | _ => none

end Event

/-- The reports that a log is given, in order. -/
def given (log : LogRef) (told : List Event) : List Report :=
  told.filterMap (Event.gives? log)

/-- The reports that are made by one call. -/
def reportsOf (origin : Origin) (told : List Event) : List (LogModel × Report) :=
  told.filterMap fun event => if event.origin = origin then event.report? else none

theorem bound_concat (start : World) (slot : SlotRef) (told : List Event) (event : Event) :
    bound start slot (told ++ [event]) = rebind slot (bound start slot told) event :=
  List.foldl_append

theorem given_concat (log : LogRef) (told : List Event) (event : Event) :
    given log (told ++ [event]) = given log told ++ (event.gives? log).toList := by
  rw [given, List.filterMap_append]
  rfl

theorem reportsOf_concat (origin : Origin) (told : List Event) (event : Event) :
    reportsOf origin (told ++ [event]) =
      reportsOf origin told ++ (if event.origin = origin then event.report? else none).toList := by
  rw [reportsOf, List.filterMap_append]
  rfl

/-- If nothing is delivered, at most a console of the host writes the call down. -/
theorem world_after_of_silence {link : Link} (silent : link.delivery = none) :
    ∃ consoles, link.after = { link.world with consoles } ∧
      ∀ console, (consoles.row console).wiring? = (link.world.consoles.row console).wiring? := by
  cases found : link.world.consoles.row link.console with
  | host capabilities calls =>
    refine ⟨_, (Link.writesDown found).after, fun console => ?_⟩
    rw [Table.row_put]
    split
    · next same =>
      rw [same, found]
      rfl
    · rfl
  | fallback slot config =>
    exact ⟨_, congrArg Reception.world (Link.reception_of_silence found silent), fun _ => rfl⟩

/-- What a step does to the world. -/
structure Changes (before after : World) (event : Event) : Prop where
  slot : ∀ slot, after.application slot = rebind slot (before.application slot) event
  applications : after.applications = before.applications
  wiring : ∀ console, (after.consoles.row console).wiring? = (before.consoles.row console).wiring?
  log : ∀ log, after.logs.row log =
    (event.gives? log).elim (before.logs.row log) (before.logs.row log).record

theorem changes_looksUp {before after : World} {origin : Origin} {console : ConsoleRef}
    {method : Method} {text : String}
    (writes : ∃ consoles, after = { before with consoles } ∧
      ∀ console, (consoles.row console).wiring? = (before.consoles.row console).wiring?) :
    Changes before after ⟨origin, .looksUp console method text⟩ := by
  obtain ⟨consoles, rfl, wiring⟩ := writes
  exact ⟨fun _ => rfl, rfl, wiring, fun _ => rfl⟩

theorem changes_reports (before : World) (origin : Origin) (model : LogModel) (report : Report) :
    Changes before (before.receive model report).world ⟨origin, .reports model report⟩ where
  slot := by
    intro slot
    cases model with
    | rebinding log other next =>
      rw [World.application_receive_rebinding]
      simp only [rebind, eq_comm]
    | memory log => rfl
    | tracing => rfl
    | echoing log console echo =>
      simp only [World.receive]
      split <;> rfl
  applications := before.applications_receive model report
  wiring := fun console => by rw [before.consoles_receive]
  log := by
    intro log
    rw [before.logs_receive]
    cases keeps : model.log? with
    | none => simp [Event.gives?, keeps]
    | some other =>
      by_cases same : other = log
      · subst same
        simp [Event.gives?, keeps, Table.modify]
      · have distinct : log ≠ other := fun eq => same eq.symm
        simp [Event.gives?, keeps, same, Table.modify, Table.row_put_of_ne _ distinct]

theorem changes_binds (before : World) (origin : Origin) (slot : SlotRef)
    (application : ApplicationRef) :
    Changes before (before.setApplication slot application) ⟨origin, .binds slot application⟩ where
  slot := fun other => by
    simp [World.application, World.setApplication, rebind, Table.row_put, eq_comm]
  applications := rfl
  wiring := fun _ => rfl
  log := fun _ => rfl

theorem changes_clears (before : World) (origin : Origin) (slot : SlotRef) :
    Changes before (before.clearApplication slot) ⟨origin, .clears slot⟩ where
  slot := fun other => by
    simp [World.application, World.clearApplication, rebind, Table.row_put, eq_comm]
  applications := rfl
  wiring := fun _ => rfl
  log := fun _ => rfl

variable {programs : Nat -> List Action} {state : State} {thread : Nat} {turn : Turn}

theorem Turns.changes (turns : Turns programs state thread turn) :
    Changes state.world turn.world (eventOf state thread turn) := by
  cases turns with
  | silent calls nothing =>
    exact changes_looksUp (calls.world_eq ▸ world_after_of_silence nothing)
  | finds calls found => exact changes_looksUp ⟨_, calls.world_eq, fun _ => rfl⟩
  | reports holds last => exact changes_reports _ _ _ _
  | passes holds goes => exact changes_reports _ _ _ _
  | binds ready next => exact changes_binds _ _ _ _
  | clears ready next => exact changes_clears _ _ _

/-- The history tells what the state is, and nothing that it is read with has changed. -/
structure Tells (start : World) (state : State) : Prop where
  slot : ∀ slot, state.world.application slot = bound start slot state.told
  applications : state.world.applications = start.applications
  wiring : ∀ console,
    (state.world.consoles.row console).wiring? = (start.consoles.row console).wiring?
  limit : ∀ log, (state.world.logs.row log).limit = (start.logs.row log).limit
  log : ∀ log before, (start.logs.row log).Holds before ->
    (state.world.logs.row log).Holds (before ++ given log state.told)

theorem tells_start (start : World) : Tells start { world := start } where
  slot := fun _ => rfl
  applications := rfl
  wiring := fun _ => rfl
  limit := fun _ => rfl
  log := fun _ before holds => (List.append_nil before).symm ▸ holds

theorem Tells.after {start : World} (tells : Tells start state)
    (changes : Changes state.world turn.world (eventOf state thread turn)) :
    Tells start (after state thread turn) where
  slot := fun slot => by
    rw [Threads.after, bound_concat, ← tells.slot]
    exact changes.slot slot
  applications := changes.applications.trans tells.applications
  wiring := fun console => (changes.wiring console).trans (tells.wiring console)
  limit := by
    intro log
    rw [← tells.limit log]
    show (turn.world.logs.row log).limit = _
    rw [changes.log]
    cases (eventOf state thread turn).gives? log with
    | none => rfl
    | some report => exact MemoryLog.limit_record _ _
  log := by
    intro log before holds
    have kept := tells.log log before holds
    show (turn.world.logs.row log).Holds (before ++ given log (state.told ++ [_]))
    rw [given_concat, ← List.append_assoc, changes.log]
    cases (eventOf state thread turn).gives? log with
    | none => exact (List.append_nil _).symm ▸ kept
    | some report => exact kept.record report

/-- A call finds what the history says that it finds. -/
theorem Tells.resolved_eq {start : World} (tells : Tells start state) {link : Link}
    (found : link.world = state.world) :
    resolved start state.told link.console link.text = link.delivery := by
  rw [resolved, ← tells.wiring, ← found]
  cases kind : link.world.consoles.row link.console with
  | host capabilities calls =>
    rw [Link.delivery_of_host kind]
    rfl
  | fallback slot config =>
    rw [Link.delivery_of_fallback kind]
    simp only [Console.wiring?, ← tells.slot, ← tells.applications, ← found]
    rfl

end ScriptConsole.Threads
