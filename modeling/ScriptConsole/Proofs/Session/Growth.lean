import ScriptConsole.Proofs.Session.Move
import ScriptConsole.Proofs.World.Growth

/-!
# Steps and runs

A step that cannot be done changes nothing, and any other is a `Move`. Whatever the
steps are, the world of a session only grows.
-/

namespace ScriptConsole.Session

/-- A step is done as a `Move` says, or it fails and changes nothing. -/
theorem step_cases (session : Session) (step : Step) :
    (∃ next, Move session step next ∧
      session.step step = (next.session, ⟨.ok next.reply, next.occurrences⟩)) ∨
    ∃ failure, session.step step = (session, ⟨.error failure, []⟩) := by
  unfold Session.step
  split
  · next next done => exact .inl ⟨next, move_of_advance done, rfl⟩
  · next failure _ => exact .inr ⟨failure, rfl⟩

theorem Move.grows {session : Session} {step : Step} {next : Advance}
    (move : Move session step next) : session.world.Grows next.session.world := by
  cases move with
  | newEnvironment => exact World.grows_addEnvironment _ none
  | newEnvironmentWith => exact World.grows_addEnvironment _ _
  | newHost => exact World.grows_addConsole _ _
  | newFallback => exact World.grows_addConsole _ _
  | newSlot => exact World.grows_addSlot _
  | newLog => exact World.grows_addLog _ _
  | newApplication => exact World.grows_addApplication _ _
  | newEcho id times =>
    exact (World.grows_addEcho _ times).trans (World.grows_addApplication _ _)
  | setApplication => exact World.grows_setApplication _ _ _
  | clearApplication => exact World.grows_clearApplication _ _
  | install => exact World.grows_install _ _ _
  | raceInstall => exact World.grows_install _ _ _
  | setConsole _ _ free => exact World.grows_bindConsole _ _ free
  | call => exact World.grows_call _ _ _ _
  | takeCalls => exact World.grows_takeCalls _ _
  | logError => exact World.grows_record _ _ _
  | clearLog => exact World.grows_clearLog _ _
  | shareSlot | shareLog | newEchoNowhere | installExisting | raceExisting | callNowhere | look =>
    exact .refl _

theorem step_grows (session : Session) (step : Step) :
    session.world.Grows (session.step step).1.world := by
  obtain ⟨next, move, done⟩ | ⟨failure, done⟩ := session.step_cases step
  · rw [done]
    exact move.grows
  · rw [done]
    exact .refl _

theorem run_grows (session : Session) (steps : List Step) :
    session.world.Grows (session.run steps).1.world := by
  induction steps generalizing session with
  | nil => exact .refl _
  | cons step steps ih => exact (session.step_grows step).trans (ih _)

end ScriptConsole.Session
