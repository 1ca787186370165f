import ScriptConsole.World.Environment

/-!
# Installing and binding

What installing a fallback console, racing to install one and binding a console of
the host do, by whether a console was bound before. Everything later is shown from
these equations.
-/

namespace ScriptConsole.World

variable {world : World} {environment other : EnvironmentRef} {console : ConsoleRef}
  {config : Config}

@[simp] theorem boundConsole_bindConsole_same :
    (world.bindConsole environment console).boundConsole environment = some console := by
  simp [boundConsole, bindConsole, Table.modify]

theorem boundConsole_bindConsole_of_ne (distinct : other ≠ environment) :
    (world.bindConsole environment console).boundConsole other = world.boundConsole other := by
  simp [boundConsole, bindConsole, Table.modify, Table.row_put_of_ne _ distinct]

/-- Binding a console leaves every environment its slot. -/
@[simp] theorem environmentSlot_bindConsole :
    (world.bindConsole environment console).environmentSlot other = world.environmentSlot other := by
  by_cases same : other = environment
  · subst same
    simp [environmentSlot, bindConsole, Table.modify]
  · simp [environmentSlot, bindConsole, Table.modify, Table.row_put_of_ne _ same]

theorem install_of_bound (there : world.boundConsole environment = some console) :
    world.install environment config = (world, console, .existing) := by
  simp only [install, there]

theorem install_of_free (free : world.boundConsole environment = none) :
    world.install environment config =
      ((world.addConsole (.fallback (world.environmentSlot environment) config)).1.bindConsole
        environment world.consoles.fresh, world.consoles.fresh, .installed) := by
  simp only [install, free, addConsole]

/-- After an installation the console that it gives is bound, whoever bound it. -/
theorem boundConsole_install :
    (world.install environment config).1.boundConsole environment =
      some (world.install environment config).2.1 := by
  cases there : world.boundConsole environment with
  | none => simp [install_of_free there]
  | some console => simp [install_of_bound there, there]

theorem count_existing (threads : Nat) :
    (List.replicate threads Installation.existing).count .installed = 0 :=
  List.count_replicate.trans (if_neg (by decide))

theorem count_installed (others : Nat) :
    (Installation.installed :: List.replicate others .existing).count .installed = 1 := by
  rw [List.count_cons_self, count_existing]

/-- All threads find the console that is bound. -/
theorem raceInstall_of_bound (there : world.boundConsole environment = some console)
    (threads : Nat) :
    world.raceInstall environment threads = (world, List.replicate threads .existing) := by
  induction threads with
  | zero => rfl
  | succ threads ih => simp only [raceInstall, install_of_bound there, ih, List.replicate_succ]

/-- The first thread installs its console, and all others find that one. -/
theorem raceInstall_of_free (free : world.boundConsole environment = none) (others : Nat) :
    world.raceInstall environment (others + 1) =
      ((world.install environment .default).1,
        .installed :: List.replicate others .existing) := by
  have there : (world.install environment .default).1.boundConsole environment = some _ :=
    boundConsole_install
  have outcome : (world.install environment .default).2.2 = .installed := by
    rw [install_of_free free]
  simp only [raceInstall, raceInstall_of_bound there, outcome]

theorem setConsole_eq_ok_iff {after : World} :
    world.setConsole environment console = .ok after ↔
      world.boundConsole environment = none ∧ world.bindConsole environment console = after := by
  unfold setConsole
  split
  · next found => simp [found]
  · next found => simp [found]

end ScriptConsole.World
