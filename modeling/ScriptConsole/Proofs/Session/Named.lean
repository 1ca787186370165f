import ScriptConsole.Proofs.Session.Closed
import ScriptConsole.Proofs.World.Reception

/-!
# Names of what is answered

A host program asks for the application in a slot and for the console of an environment,
and is answered a name. In every session that starts with nothing, each application and
each console that is bound somewhere was given a name, so there is one to answer.
-/

namespace ScriptConsole

/-- Console calls bind no console and change no application: what they change is
elsewhere. -/
theorem Link.fixed_after (link : Link) :
    link.after.environments = link.world.environments ∧
      link.after.applications = link.world.applications := by
  cases delivers : link.delivery with
  | some delivery =>
    rw [after, reception_of_delivery delivers]
    exact ⟨link.world.environments_receive _ _, link.world.applications_receive _ _⟩
  | none =>
    cases found : link.world.consoles.row link.console with
    | host capabilities calls =>
      rw [after, reception_of_host found]
      exact ⟨rfl, rfl⟩
    | fallback slot config =>
      rw [after, reception_of_silence found delivers]
      exact ⟨rfl, rfl⟩

theorem Chain.fixed {link : Link} {links : List Link} {final : World}
    (chain : Chain link links final) :
    final.environments = link.world.environments ∧
      final.applications = link.world.applications := by
  induction chain with
  | @last link ends => exact link.fixed_after
  | @further link following links final goes rest ih =>
    rw [Link.world_of_next goes] at ih
    exact ⟨ih.1.trans link.fixed_after.1, ih.2.trans link.fixed_after.2⟩

theorem World.fixed_call (world : World) (console : ConsoleRef) (method : Method)
    (arguments : List Argument) :
    (world.call console method arguments).1.environments = world.environments ∧
      (world.call console method arguments).1.applications = world.applications := by
  obtain ⟨links, chain, _⟩ := world.call_follows_chain console method arguments
  exact chain.fixed

namespace Session

/-- Applications were given names when they were made, and consoles when they were bound at
the latest. -/
structure Named (session : Session) : Prop where
  application : ∀ application, session.world.applications.Has application ->
    ∃ name, session.applications.Gave name application
  console : ∀ environment console, session.world.boundConsole environment = some console ->
    ∃ name, session.consoles.Gave name console

theorem named_empty : Named {} where
  application := by
    intro application there
    cases there
  console := by
    intro environment console there
    cases there

namespace Named

variable {session : Session}

/-- Where no application is made and no console is bound, names may only be added. -/
theorem of_fixed {later : Session} (named : session.Named)
    (environments : later.world.environments = session.world.environments)
    (applications : later.world.applications = session.world.applications)
    (consoleNames : ∀ name console, session.consoles.Gave name console ->
      later.consoles.Gave name console)
    (applicationNames : later.applications = session.applications) : later.Named where
  application := by
    rw [applications, applicationNames]
    exact named.application
  console := by
    intro environment console there
    rw [World.boundConsole, environments] at there
    obtain ⟨name, gave⟩ := named.console environment console there
    exact ⟨name, consoleNames name console gave⟩

theorem addApplication (named : session.Named) (id : String) (logs : Option LogModel) :
    (session.addApplication id logs).session.Named where
  application := by
    intro application there
    rcases Table.has_put_fresh.1 there with before | rfl
    · obtain ⟨name, gave⟩ := named.application application before
      exact ⟨name, gave.add id _⟩
    · exact ⟨id, Names.gave_add_same⟩
  console := named.console

theorem addEnvironment (named : session.Named) (id : String) {console : Option ConsoleRef}
    (known : ∀ bound, console = some bound -> ∃ name, session.consoles.Gave name bound) :
    (session.addEnvironment id console).session.Named where
  application := named.application
  console := by
    intro environment bound there
    simp only [World.boundConsole, Session.addEnvironment, World.addEnvironment, World.addSlot,
      Table.row_put] at there
    split at there
    · exact known bound there
    · exact named.console environment bound there

/-- A console that is put where none was must have a name. -/
theorem bindConsole {world : World} {names : Names .console} {environment : EnvironmentRef}
    {console : ConsoleRef} (known : ∃ name, names.Gave name console)
    (others : ∀ other bound, world.boundConsole other = some bound ->
      ∃ name, names.Gave name bound) :
    ∀ other bound, (world.bindConsole environment console).boundConsole other = some bound ->
      ∃ name, names.Gave name bound := by
  intro other bound there
  by_cases same : other = environment
  · subst same
    rw [World.boundConsole_bindConsole_same] at there
    cases there
    exact known
  · rw [World.boundConsole_bindConsole_of_ne same] at there
    exact others other bound there

theorem install (named : session.Named) {name : String} {environment : EnvironmentRef}
    {config : Config} (free : session.world.boundConsole environment = none) :
    ((session.withWorld (session.world.install environment config).1).nameInstalled name
      (session.world.install environment config).2.1).Named := by
  rw [World.install_of_free free]
  refine ⟨named.application, bindConsole ⟨_, Names.gave_add_same⟩ fun other bound there => ?_⟩
  obtain ⟨given, gave⟩ := named.console other bound there
  exact ⟨given, gave.add _ _⟩

end Named

theorem Move.named {session : Session} {step : Step} {next : Advance}
    (move : Move session step next) (named : session.Named) : next.session.Named := by
  cases move with
  | newEnvironment id => exact named.addEnvironment id fun _ none => nomatch none
  | newEnvironmentWith id found =>
    refine named.addEnvironment id fun bound same => ?_
    cases same
    exact ⟨_, Names.gave_of_find found⟩
  | newHost id | newFallback id =>
    exact named.of_fixed rfl rfl (fun _ _ gave => gave.add id _) rfl
  | newApplication id => exact named.addApplication id _
  | newEcho id times =>
    have still : (session.withWorld (session.world.addEcho times).1).Named :=
      named.of_fixed rfl rfl (fun _ _ gave => gave) rfl
    exact still.addApplication id _
  | install source found free made => exact made ▸ named.install free
  | raceInstall others found free made => exact made ▸ named.install free
  | setConsole found known free =>
    exact ⟨named.application, Named.bindConsole ⟨_, Names.gave_of_find known⟩ named.console⟩
  | call =>
    obtain ⟨environments, applications⟩ := session.world.fixed_call _ _ _
    exact named.of_fixed environments applications (fun _ _ => id) rfl
  | takeCalls =>
    refine named.of_fixed ?_ ?_ (fun _ _ => id) rfl
    · simp only [withWorld, World.takeCalls]
      split <;> rfl
    · simp only [withWorld, World.takeCalls]
      split <;> rfl
  | _ => exact named.of_fixed rfl rfl (fun _ _ => id) rfl

theorem step_named {session : Session} (named : session.Named) (step : Step) :
    (session.step step).1.Named := by
  obtain ⟨next, move, done⟩ | ⟨failure, done⟩ := session.step_cases step
  · rw [done]
    exact move.named named
  · rw [done]
    exact named

theorem run_named {session : Session} (named : session.Named) (steps : List Step) :
    (session.run steps).1.Named := by
  induction steps generalizing session with
  | nil => exact named
  | cons step steps ih => exact ih (step_named named step)

namespace Named

variable {session : Session}

/-- The console that is bound is told by its name. -/
theorem identifies_console (named : session.Named) (environment : EnvironmentRef) :
    session.consoles.Identifies
      ((session.world.boundConsole environment).bind session.consoles.nameOf?)
      (session.world.boundConsole environment) :=
  Names.identifies_nameOf? (named.console environment)

/-- So is the application in a slot. -/
theorem identifies_application (named : session.Named) (closed : session.Closed)
    (slot : SlotRef) :
    session.applications.Identifies
      ((session.world.application slot).bind session.applications.nameOf?)
      (session.world.application slot) :=
  Names.identifies_nameOf? fun application there =>
    named.application application (closed.world.slot slot application there)

end Named

end Session
end ScriptConsole
