import ScriptConsole.Proofs.World.Install
import ScriptConsole.Proofs.World.Link
import ScriptConsole.Proofs.World.Table

/-!
# What never changes in a world

Objects are never taken away, and much about them is fixed when they are made: the
slot and the settings of a fallback console, the error log of an application, the slot
of an environment, the limit of a log. A console that is bound stays bound. `Grows`
collects this for two worlds, one after the other.
-/

namespace ScriptConsole

/-- What a fallback console was made with; a console of the host has nothing of the
kind. -/
def Console.wiring? : Console -> Option (SlotRef × Config)
  | .host _ _ => none
  | .fallback slot config => some (slot, config)

theorem Console.wiring?_eq_some_iff {console : Console} {slot : SlotRef} {config : Config} :
    console.wiring? = some (slot, config) ↔ console = .fallback slot config := by
  cases console <;> simp [wiring?]

theorem MemoryLog.limit_record (log : MemoryLog) (report : Report) :
    (log.record report).limit = log.limit := by
  unfold record
  split
  · rfl
  · rfl
  · rfl

namespace World

/-- All objects of the world before are in the world after, as far as they never
change. -/
structure Grows (before after : World) : Prop where
  slots : before.slots.Keeps (fun _ => ()) after.slots
  logs : before.logs.Keeps MemoryLog.limit after.logs
  echoes : before.echoes.Keeps (fun _ => ()) after.echoes
  applications : before.applications.Keeps id after.applications
  consoles : before.consoles.Keeps Console.wiring? after.consoles
  environments : before.environments.Keeps Environment.slot after.environments
  bound : ∀ {environment console}, before.boundConsole environment = some console ->
    after.boundConsole environment = some console

namespace Grows

theorem refl (world : World) : Grows world world where
  slots := .refl _
  logs := .refl _
  echoes := .refl _
  applications := .refl _
  consoles := .refl _
  environments := .refl _
  bound := id

theorem trans {before middle after : World} (first : Grows before middle)
    (second : Grows middle after) : Grows before after where
  slots := first.slots.trans second.slots
  logs := first.logs.trans second.logs
  echoes := first.echoes.trans second.echoes
  applications := first.applications.trans second.applications
  consoles := first.consoles.trans second.consoles
  environments := first.environments.trans second.environments
  bound := fun there => second.bound (first.bound there)

/-- A fallback console keeps its slot and its settings. -/
theorem fallback {world after : World} (grows : Grows world after) {console : ConsoleRef}
    {slot : SlotRef} {config : Config}
    (found : world.consoles.row console = .fallback slot config) :
    after.consoles.row console = .fallback slot config := by
  have there : world.consoles.Has console := by
    apply Table.has_of_row_ne
    rw [found]
    exact Console.noConfusion
  rw [← Console.wiring?_eq_some_iff, (grows.consoles console there).2, found]
  rfl

/-- An environment with a console keeps its slot. -/
theorem environmentSlot {world after : World} (grows : Grows world after)
    {environment : EnvironmentRef} {console : ConsoleRef}
    (there : world.boundConsole environment = some console) :
    after.environmentSlot environment = world.environmentSlot environment := by
  refine (grows.environments environment ?_).2
  apply Table.has_of_row_ne
  intro isDefault
  rw [boundConsole, isDefault] at there
  cases there

end Grows

variable (world : World)

theorem grows_setApplication (slot : SlotRef) (application : ApplicationRef) :
    Grows world (world.setApplication slot application) :=
  { Grows.refl world with slots := .put rfl }

theorem grows_clearApplication (slot : SlotRef) : Grows world (world.clearApplication slot) :=
  { Grows.refl world with slots := .put rfl }

theorem grows_record (log : LogRef) (report : Report) : Grows world (world.record log report) :=
  { Grows.refl world with logs := .put (MemoryLog.limit_record _ report) }

theorem grows_clearLog (log : LogRef) :
    Grows world { world with logs := world.logs.modify log MemoryLog.clear } :=
  { Grows.refl world with logs := .put rfl }

theorem grows_putEcho (echo : EchoRef) (left : Nat) :
    Grows world { world with echoes := world.echoes.put echo left } :=
  { Grows.refl world with echoes := .put rfl }

theorem grows_addSlot : Grows world world.addSlot.1 :=
  { Grows.refl world with slots := .put_fresh _ _ }

theorem grows_addLog (limit : Option Nat) : Grows world (world.addLog limit).1 :=
  { Grows.refl world with logs := .put_fresh _ _ }

theorem grows_addEcho (times : Nat) : Grows world (world.addEcho times).1 :=
  { Grows.refl world with echoes := .put_fresh _ _ }

theorem grows_addApplication (application : Application) :
    Grows world (world.addApplication application).1 :=
  { Grows.refl world with applications := .put_fresh _ _ }

theorem grows_addConsole (console : Console) : Grows world (world.addConsole console).1 :=
  { Grows.refl world with consoles := .put_fresh _ _ }

/-- Where the environment goes nothing was bound: it is not there yet. -/
theorem grows_addEnvironment (console : Option ConsoleRef) :
    Grows world (world.addEnvironment console).1 :=
  { Grows.refl world with
    slots := .put_fresh _ _
    environments := .put_fresh _ _
    bound := by
      intro environment bound there
      have distinct : environment ≠ world.environments.fresh := by
        rintro rfl
        rw [boundConsole, Table.row_of_not_has (Table.not_has_fresh _)] at there
        cases there
      simpa [boundConsole, addEnvironment, addSlot, Table.row_put_of_ne _ distinct] using there }

theorem grows_bindConsole {environment : EnvironmentRef} (console : ConsoleRef)
    (free : world.boundConsole environment = none) :
    Grows world (world.bindConsole environment console) :=
  { Grows.refl world with
    environments := .put rfl
    bound := by
      intro other bound there
      have distinct : other ≠ environment := by
        rintro rfl
        rw [free] at there
        cases there
      rw [boundConsole_bindConsole_of_ne distinct]
      exact there }

theorem grows_install (environment : EnvironmentRef) (config : Config) :
    Grows world (world.install environment config).1 := by
  cases there : world.boundConsole environment with
  | some console =>
    rw [install_of_bound there]
    exact .refl world
  | none =>
    rw [install_of_free there]
    exact (world.grows_addConsole _).trans (grows_bindConsole _ _ there)

/-- Writing down a call keeps a console of the host one. -/
theorem grows_putHost {console : ConsoleRef} {capabilities : Capabilities}
    {calls later : List (Method × List Argument)}
    (found : world.consoles.row console = .host capabilities calls) :
    Grows world
      { world with consoles := world.consoles.put console (.host capabilities later) } :=
  { Grows.refl world with consoles := .put (by rw [found]; rfl) }

theorem grows_takeCalls (console : ConsoleRef) : Grows world (world.takeCalls console).1 := by
  unfold takeCalls
  split
  · next found => exact world.grows_putHost found
  · exact .refl world

theorem grows_receive (model : LogModel) (report : Report) :
    Grows world (world.receive model report).world := by
  cases model with
  | memory log => exact world.grows_record log report
  | tracing => exact .refl world
  | rebinding log slot next =>
    cases next with
    | none => exact (world.grows_record log report).trans (grows_clearApplication _ slot)
    | some next => exact (world.grows_record log report).trans (grows_setApplication _ slot next)
  | echoing log console echo =>
    simp only [receive]
    split
    · exact world.grows_record log report
    · exact (world.grows_record log report).trans (grows_putEcho _ echo _)

end World

theorem Link.grows_after (link : Link) : link.world.Grows link.after := by
  cases delivers : link.delivery with
  | some delivery =>
    rw [after, reception_of_delivery delivers]
    exact link.world.grows_receive _ _
  | none =>
    cases found : link.world.consoles.row link.console with
    | host capabilities calls =>
      rw [after, reception_of_host found]
      exact link.world.grows_putHost found
    | fallback slot config =>
      rw [after, reception_of_silence found delivers]
      exact .refl _

/-- A call that is made in consequence finds the world that the call before left. -/
theorem Link.world_of_next {link following : Link} (goes : link.next = some following) :
    following.world = link.after := by
  obtain ⟨console, _, rfl⟩ := Option.map_eq_some_iff.1 goes
  rfl

theorem Chain.grows {link : Link} {links : List Link} {final : World}
    (chain : Chain link links final) : link.world.Grows final := by
  induction chain with
  | @last link ends => exact link.grows_after
  | @further link following links final goes rest ih =>
    rw [Link.world_of_next goes] at ih
    exact link.grows_after.trans ih

theorem World.grows_call (world : World) (console : ConsoleRef) (method : Method)
    (arguments : List Argument) : world.Grows (world.call console method arguments).1 := by
  obtain ⟨links, chain, _⟩ := world.call_follows_chain console method arguments
  exact chain.grows

end ScriptConsole
