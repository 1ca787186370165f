import ScriptConsole.Proofs.Session.Named

/-!
# The console of an environment is bound once

Every way to bind a console in an environment answers whether it did. `bindings` adds
up these answers over a run, and the main statement balances them against the state:
what was bound before, and what the run says that it bound, is what is bound after. So
at most one attempt succeeds, none where the host brought a console along, and all
others leave the session as it was.

A run is any list of steps, so it is also any order in which the steps of several
threads come, each of them done in one piece.
-/

namespace ScriptConsole

namespace World

/-- A console is bound in the environment: one, or none. -/
def bound (world : World) (environment : EnvironmentRef) : Nat :=
  (world.boundConsole environment).isSome.toNat

theorem bound_of_environments_eq {world after : World} {environment : EnvironmentRef}
    (same : after.environments = world.environments) :
    after.bound environment = world.bound environment := by
  simp only [bound, boundConsole, same]

end World

namespace Session

/-- The environment goes by the name. -/
def Knows (session : Session) (name : String) (environment : EnvironmentRef) : Prop :=
  session.environments.find name = .ok environment

instance (session : Session) (name : String) (environment : EnvironmentRef) :
    Decidable (session.Knows name environment) :=
  match found : session.environments.find name with
  | .ok other => decidable_of_iff (other = environment) (by simp [Knows, found])
  | .error _ => .isFalse (by simp [Knows, found])

/-- How many consoles a step says that it has bound in an environment. -/
def bindingsOf (session : Session) (environment : EnvironmentRef) (step : Step) : Nat :=
  match step, (session.step step).2.reply with
  | .install name _, .ok (.installation .installed) =>
    if session.Knows name environment then 1 else 0
  | .raceInstall name _, .ok (.count installed) =>
    if session.Knows name environment then installed else 0
  | .setConsole name _, .ok .done => if session.Knows name environment then 1 else 0
  | _, _ => 0

/-- How many consoles the steps of a run say that they have bound in an environment. -/
def bindings (session : Session) (environment : EnvironmentRef) : List Step -> Nat
  | [] => 0
  | step :: steps =>
    session.bindingsOf environment step + (session.step step).1.bindings environment steps

variable {session : Session} {environment : EnvironmentRef}

theorem knows_iff {name : String} {found : EnvironmentRef}
    (known : session.environments.find name = .ok found) :
    session.Knows name environment ↔ environment = found := by
  simp [Knows, known, eq_comm]

/-- A console that is put where none was is one more there, and nowhere else. -/
theorem bound_bindConsole (world : World) {target : EnvironmentRef} (console : ConsoleRef)
    (free : world.boundConsole target = none) :
    (world.bindConsole target console).bound environment =
      world.bound environment + if environment = target then 1 else 0 := by
  by_cases same : environment = target
  · subst same
    simp [World.bound, free]
  · simp [World.bound, World.boundConsole_bindConsole_of_ne same, same]

theorem bound_install (world : World) {target : EnvironmentRef} (config : Config)
    (free : world.boundConsole target = none) :
    (world.install target config).1.bound environment =
      world.bound environment + if environment = target then 1 else 0 := by
  rw [World.install_of_free free]
  exact bound_bindConsole _ _ free

theorem bound_addEnvironment (world : World) (console : Option ConsoleRef)
    (made : world.environments.Has environment) :
    (world.addEnvironment console).1.bound environment = world.bound environment := by
  simp [World.bound, World.boundConsole, World.addEnvironment, World.addSlot,
    Table.row_put_of_ne _ made.ne_fresh]

/-- What a step says that it binds is what it changes. -/
theorem step_balance (made : session.world.environments.Has environment) (step : Step) :
    session.world.bound environment + session.bindingsOf environment step =
      (session.step step).1.world.bound environment := by
  unfold bindingsOf
  obtain ⟨next, move, done⟩ | ⟨failure, done⟩ := session.step_cases step
  · rw [done]
    cases move with
    | newEnvironment => exact (bound_addEnvironment _ _ made).symm
    | newEnvironmentWith => exact (bound_addEnvironment _ _ made).symm
    | install source found free =>
      simp only [knows_iff found]
      exact (bound_install _ _ free).symm
    | raceInstall others found free =>
      simp only [knows_iff found]
      exact (bound_install _ _ free).symm
    | raceExisting threads found idle => simp
    | setConsole found known free =>
      simp only [knows_iff found]
      exact (bound_bindConsole _ _ free).symm
    | @call step target method values arguments console calls converts means =>
      have same := (session.world.fixed_call console method arguments).1
      cases calls <;> exact (World.bound_of_environments_eq same).symm
    | callNowhere calls => cases calls <;> rfl
    | look reply looks => cases step <;> first | rfl | cases looks
    | takeCalls =>
      refine (World.bound_of_environments_eq ?_).symm
      simp only [withWorld, World.takeCalls]
      split <;> rfl
    | _ => rfl
  · rw [done]
    cases step <;> rfl

/-- What the steps of a run say that they bind is what the run changes. -/
theorem run_balance (made : session.world.environments.Has environment) (steps : List Step) :
    session.world.bound environment + session.bindings environment steps =
      (session.run steps).1.world.bound environment := by
  induction steps generalizing session with
  | nil => rfl
  | cons step steps ih =>
    have stays := ((session.step_grows step).environments environment made).1
    simp only [bindings, run]
    rw [← Nat.add_assoc, step_balance made, ih stays]

/-- A fallback console that did not exist before was put in the environment, with these
settings and on the environment's own slot. -/
def Installs (before after : World) (environment : EnvironmentRef) (config : Config) : Prop :=
  ∃ console, ¬before.consoles.Has console ∧ after.boundConsole environment = some console ∧
    after.consoles.row console = .fallback (before.environmentSlot environment) config

theorem installs_install {world : World} (free : world.boundConsole environment = none)
    (config : Config) :
    Installs world (world.install environment config).1 environment config := by
  refine ⟨world.consoles.fresh, Table.not_has_fresh _, ?_, ?_⟩
  · rw [World.boundConsole_install, World.install_of_free free]
  · rw [World.install_of_free free]
    exact Table.row_put_same _ _ _

/-- What the operations on the console of an environment answer at this moment, and
what they do: an attempt to bind one answers that it did exactly if none is bound, and
otherwise leaves everything as it is. -/
structure OnceCell (session : Session) (environment : EnvironmentRef) (name : String) : Prop where
  /-- Without a source tag the default settings are those of the console. -/
  install : ∀ source, let (after, outcome) := session.step (.install name source)
    match session.world.boundConsole environment with
    | none => outcome.reply = .ok (.installation .installed) ∧
        Installs session.world after.world environment
          (match source with
          | none => .default
          | some source => { source })
    | some _ => outcome.reply = .ok (.installation .existing) ∧ after = session
  /-- Of several threads one installs its console, and all others find that one. -/
  raceInstall : ∀ others, let (after, outcome) := session.step (.raceInstall name (others + 1))
    match session.world.boundConsole environment with
    | none => outcome.reply = .ok (.count 1) ∧
        outcome.occurrences = .offeredElsewhere environment .installed ::
          List.replicate others (.offeredElsewhere environment .existing) ∧
        Installs session.world after.world environment .default
    | some _ => outcome.reply = .ok (.count 0) ∧
        outcome.occurrences =
          List.replicate (others + 1) (.offeredElsewhere environment .existing) ∧
        after = session
  setConsole : ∀ consoleName console, session.consoles.find consoleName = .ok console ->
    let (after, outcome) := session.step (.setConsole name consoleName)
    match session.world.boundConsole environment with
    | none => outcome.reply = .ok .done ∧ after.world.boundConsole environment = some console
    | some _ => outcome.reply = .error (.setup .consoleAlreadySet) ∧ after = session
  /-- Looking tells the console that is bound. -/
  boundConsole : ∃ answer, session.step (.boundConsole name) = (session, ⟨.ok (.name answer), []⟩) ∧
    session.consoles.Identifies answer (session.world.boundConsole environment)
  /-- A fallback console that is bound tells its settings. -/
  source : ∀ consoleName console slot config, session.consoles.find consoleName = .ok console ->
    session.world.consoles.row console = .fallback slot config ->
    session.step (.source consoleName) = (session, ⟨.ok (.text config.source), []⟩)

theorem configOf_eq (source : Option String) :
    configOf source =
      match source with
      | none => Config.default
      | some source => { source } := by
  cases source <;> rfl

theorem onceCell {name : String} (named : session.Named) (known : session.Knows name environment) :
    OnceCell session environment name := by
  have identifies := named.identifies_console environment
  unfold Knows at known
  constructor
  · intro source
    rw [← configOf_eq]
    cases there : session.world.boundConsole environment with
    | none =>
      have installed := installs_install there (configOf source)
      rw [World.install_of_free there] at installed
      simp only [Session.step, advance, known, bind_ok, pure_eq_ok, World.install_of_free there]
      exact ⟨trivial, installed⟩
    | some console =>
      simp only [Session.step, advance, known, bind_ok, pure_eq_ok, World.install_of_bound there]
      exact ⟨trivial, rfl⟩
  · intro others
    cases there : session.world.boundConsole environment with
    | none =>
      simp only [Session.step, advance, known, bind_ok, pure_eq_ok, World.raceInstall_of_free there,
        World.boundConsole_install, World.count_installed, List.map_cons, List.map_replicate]
      exact ⟨trivial, trivial, installs_install there .default⟩
    | some console =>
      simp only [Session.step, advance, known, bind_ok, pure_eq_ok,
        World.raceInstall_of_bound there, World.count_existing, List.map_replicate]
      exact ⟨trivial, trivial, rfl⟩
  · intro consoleName console found
    cases there : session.world.boundConsole environment with
    | none =>
      simp [Session.step, advance, known, found, World.setConsole, there, withWorld]
    | some other =>
      simp [Session.step, advance, known, found, World.setConsole, there]
  · refine ⟨_, ?_, identifies⟩
    simp only [Session.step, advance, known, bind_ok, pure_eq_ok]
  · intro consoleName console slot config found row
    simp only [Session.step, advance, fallbackOf, found, row, bind_ok, pure_eq_ok]

/-- An environment is made in a session under a name, with the console that the host
brings along, if it brings one. -/
def Creates (session : Session) (step : Step) (name : String) (console : Option ConsoleRef) :
    Prop :=
  let after := (session.step step).1
  ∃ environment, ¬session.world.environments.Has environment ∧
    after.world.environments.Has environment ∧ after.Knows name environment ∧
    after.world.boundConsole environment = console

theorem creates_addEnvironment {step : Step} {name : String} {console : Option ConsoleRef}
    (adds : (session.step step).1 = (session.addEnvironment name console).session) :
    Creates session step name console := by
  refine ⟨session.world.environments.fresh, Table.not_has_fresh _, ?_, ?_, ?_⟩
  · rw [adds]
    exact Table.has_put_same _ _ _
  · rw [adds]
    simp [Knows, addEnvironment, World.addEnvironment, Names.add, Names.find, World.addSlot]
  · rw [adds]
    simp [World.boundConsole, addEnvironment, World.addEnvironment, World.addSlot]

/-- The console of an environment is written at most once. An environment starts
without a console, or with the one that the host brings along. From any moment of any
run on, whatever is done and in whatever order: what was bound and what the steps say that
they bind is what is bound in the end, and never more than one; a console that is bound
stays bound, with its slot and its settings; and at every moment each attempt answers
and does what it should, and whoever asks is told the console that is bound. -/
theorem console_written_once (before : List Step) :
    let session := (({} : Session).run before).1
    (∀ id, Creates session (.newEnvironment id) id none) ∧
    (∀ id name console, session.consoles.find name = .ok console ->
      Creates session (.newEnvironmentWith id name) id (some console)) ∧
    ∀ environment, session.world.environments.Has environment -> ∀ steps,
      let later := (session.run steps).1
      session.world.bound environment + session.bindings environment steps =
          later.world.bound environment ∧
        session.world.bound environment + session.bindings environment steps ≤ 1 ∧
        (∀ console, session.world.boundConsole environment = some console ->
          later.world.boundConsole environment = some console ∧
          later.world.environmentSlot environment = session.world.environmentSlot environment ∧
          ∀ slot config, session.world.consoles.row console = .fallback slot config ->
            later.world.consoles.row console = .fallback slot config) ∧
        ∀ name, later.Knows name environment -> OnceCell later environment name := by
  intro session
  have named : session.Named := run_named named_empty before
  refine ⟨fun id => ?_, fun id name console found => ?_, fun environment made steps => ?_⟩
  · exact creates_addEnvironment rfl
  · apply creates_addEnvironment
    simp only [Session.step, advance, found, bind_ok, pure_eq_ok]
  · have balance := run_balance made steps
    have grows := session.run_grows steps
    refine ⟨balance, ?_, fun console there => ?_, fun name known => ?_⟩
    · rw [balance]
      exact Bool.toNat_le _
    · exact ⟨grows.bound there, grows.environmentSlot there, fun slot config => grows.fallback⟩
    · exact onceCell (run_named named steps) known

/-- A fallback console is installed with a source tag of its own; two threads that race for
the environment come too late, and so do two other attempts. The console that was installed
first is told by its name, with its source tag. -/
theorem console_written_once_race :
    let session := (({} : Session).run [.newHost "host" .minimal, .newEnvironment "page"]).1
    let steps : List Step := [.install "page" (some "worker"), .raceInstall "page" 2,
      .setConsole "page" "host", .install "page" none]
    let later := (session.run steps).1
    session.world.environments.Has ⟨0⟩ ∧ session.bindings ⟨0⟩ steps = 1 ∧
      session.world.bound ⟨0⟩ + session.bindings ⟨0⟩ steps ≤ 1 ∧
      OnceCell later ⟨0⟩ "page" ∧
      (later.step (.boundConsole "page")).2.reply = .ok (.name (some "shim:page")) ∧
      later.consoles.find "shim:page" = .ok ⟨1⟩ ∧
      (later.step (.source "shim:page")).2.reply = .ok (.text "worker") := by
  intro session steps later
  obtain ⟨-, -, written⟩ := console_written_once [.newHost "host" .minimal, .newEnvironment "page"]
  obtain ⟨-, once, -, cells⟩ := written ⟨0⟩ (by decide) steps
  have cell : OnceCell later ⟨0⟩ "page" := cells "page" (by decide +kernel)
  have found : later.consoles.find "shim:page" = .ok ⟨1⟩ := rfl
  have shim : later.world.consoles.row ⟨1⟩ = .fallback ⟨0⟩ { source := "worker" } := rfl
  refine ⟨by decide, by decide +kernel, once, cell, rfl, found, ?_⟩
  rw [cell.source "shim:page" ⟨1⟩ ⟨0⟩ _ found shim]

end Session

end ScriptConsole
