import ScriptConsole.Proofs.Session.Binding
import ScriptConsole.Proofs.Session.Closed

/-!
# Handles of a slot

A slot is reached through names of its own, through environments, through fallback
consoles and through the models that rebind it. `Aliases` says for every step that makes
a handle which slot it is a handle of: a slot that is there already, or one that no
handle reached before.
-/

namespace ScriptConsole

@[simp] theorem Names.find_add_same {kind : Resource} (names : Names kind) (name : String)
    (ref : Ref kind) : (names.add name ref).find name = .ok ref := by
  simp [find, add]

namespace Session

/-- The ways in which something in a session reaches a slot. -/
inductive Handle (session : Session) (slot : SlotRef) : Prop where
  | target {target : SlotTarget} (means : session.slotOf target = .ok slot)
  | console {console : ConsoleRef} {config : Config}
      (found : session.world.consoles.row console = .fallback slot config)
  | model {application : ApplicationRef} {log : LogRef} {next : Option ApplicationRef}
      (exposes : (session.world.applications.row application).logs =
        some (.rebinding log slot next))

variable {session : Session}

/-- A handle is of a slot that is there. -/
theorem Handle.has {slot : SlotRef} (handle : session.Handle slot) (closed : session.Closed) :
    session.world.slots.Has slot := by
  cases handle with
  | target means => exact closed.has_slot means
  | console found => exact closed.world.console _ slot _ found
  | model exposes => exact (closed.world.application _ _ exposes).2.1

/-- What the handles that a step makes are handles of. -/
structure Aliases (session : Session) : Prop where
  /-- A new slot is empty, and nothing reached it before. -/
  newSlot : ∀ id, let after := (session.step (.newSlot id)).1
    ∃ slot, after.slotOf (.slot id) = .ok slot ∧ ¬session.Handle slot ∧
      after.world.application slot = none
  /-- So is the slot of a new environment. -/
  newEnvironment : ∀ id, let after := (session.step (.newEnvironment id)).1
    ∃ slot, after.slotOf (.environment id) = .ok slot ∧ ¬session.Handle slot ∧
      after.world.application slot = none
  newEnvironmentWith : ∀ id name console, session.consoles.find name = .ok console ->
    let after := (session.step (.newEnvironmentWith id name)).1
    ∃ slot, after.slotOf (.environment id) = .ok slot ∧ ¬session.Handle slot ∧
      after.world.application slot = none
  /-- A shared handle is of the same slot. -/
  shareSlot : ∀ id target slot, session.slotOf target = .ok slot ->
    let after := (session.step (.shareSlot id target)).1
    after.slotOf (.slot id) = .ok slot ∧ after.world = session.world
  /-- A fallback console has the slot that it was made for, and its settings. -/
  newFallback : ∀ id target source slot, session.slotOf target = .ok slot ->
    let after := (session.step (.newFallback id target source)).1
    ∃ console, after.consoleOf (.console id) = .ok (some console) ∧
      after.world.consoles.row console = .fallback slot (configOf source)
  /-- An installed console has the slot of its environment. -/
  install : ∀ name environment source, session.Knows name environment ->
    session.world.boundConsole environment = none ->
    Installs session.world (session.step (.install name source)).1.world environment
      (configOf source)
  raceInstall : ∀ name environment others, session.Knows name environment ->
    session.world.boundConsole environment = none ->
    Installs session.world (session.step (.raceInstall name (others + 1))).1.world environment
      .default
  /-- Whatever is done, what a handle is a handle of never changes. -/
  lasts : ∀ steps, session.world.Grows (session.run steps).1.world

/-- A slot that is made has no handle yet, and nothing in it. -/
theorem not_handle_fresh (closed : session.Closed) :
    ¬session.Handle session.world.slots.fresh :=
  fun handle => Table.not_has_fresh _ (handle.has closed)

theorem newSlot_of_addEnvironment (closed : session.Closed) (id : String)
    (console : Option ConsoleRef) :
    let after := (session.addEnvironment id console).session
    ∃ slot, after.slotOf (.environment id) = .ok slot ∧ ¬session.Handle slot ∧
      after.world.application slot = none := by
  refine ⟨session.world.slots.fresh, ?_, not_handle_fresh closed, ?_⟩
  · simp [slotOf, addEnvironment, World.addEnvironment, World.addSlot, World.environmentSlot]
  · simp [addEnvironment, World.addEnvironment, World.addSlot, World.application]

theorem aliases (closed : session.Closed) (named : session.Named) : Aliases session where
  newSlot := by
    intro id
    refine ⟨session.world.slots.fresh, ?_, not_handle_fresh closed, ?_⟩
    · simp [slotOf, Session.step, advance, World.addSlot]
    · simp [Session.step, advance, World.addSlot, World.application]
  newEnvironment := fun id => newSlot_of_addEnvironment closed id none
  newEnvironmentWith := by
    intro id name console found
    have made := newSlot_of_addEnvironment closed id (some console)
    simp only [Session.step, advance, found, bind_ok, pure_eq_ok]
    exact made
  shareSlot := by
    intro id target slot means
    simp only [Session.step, advance, means, bind_ok, pure_eq_ok]
    exact ⟨Names.find_add_same _ _ _, trivial⟩
  newFallback := by
    intro id target source slot means
    simp only [Session.step, advance, means, bind_ok, pure_eq_ok]
    refine ⟨session.world.consoles.fresh, ?_, Table.row_put_same _ _ _⟩
    simp [consoleOf, addConsole, World.addConsole]
  install := by
    intro name environment source known free
    have cell := (onceCell named known).install source
    rw [free] at cell
    rw [configOf_eq]
    exact cell.2
  raceInstall := by
    intro name environment others known free
    have cell := (onceCell named known).raceInstall others
    rw [free] at cell
    exact cell.2.2
  lasts := session.run_grows

end Session

end ScriptConsole
