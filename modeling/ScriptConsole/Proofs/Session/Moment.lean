import ScriptConsole.Proofs.Session.Refinement

/-!
# Moments of a run

A run can be looked at before each of its steps, after each of the calls that one of its
steps leads to, and at its end. Every such moment has its world and what is put down by
then. What is put down tells what is in the slots and in the logs of that very world, so
what is shown of chronicles holds within calls as well.
-/

namespace ScriptConsole

open Chronicle
open Session (Entry Step Calls)

/-- What the links of a chain put down up to one of them tells what became of the slots
and the logs by then. -/
theorem Chain.accounts_until {first link : Link} {links earlier later : List Link} {final : World}
    (chain : Chain first links final) (split : links = earlier ++ link :: later)
    (closed : first.world.Closed) :
    first.world.Grows link.after ∧
      Accounts first.world link.after ((earlier ++ [link]).flatMap Link.entries) := by
  induction chain generalizing earlier with
  | @last first ends =>
    obtain ⟨rfl, rfl, rfl⟩ : earlier = [] ∧ first = link ∧ later = [] := by
      cases earlier <;> simp_all
    simp only [List.nil_append, List.flatMap_cons, List.flatMap_nil, List.append_nil]
    exact ⟨first.grows_after, Link.accounts closed⟩
  | @further first following links final goes rest ih =>
    cases earlier with
    | nil =>
      obtain ⟨rfl, rfl⟩ := List.cons.inj split
      simp only [List.nil_append, List.flatMap_cons, List.flatMap_nil, List.append_nil]
      exact ⟨first.grows_after, Link.accounts closed⟩
    | cons head earlier =>
      obtain ⟨rfl, remains⟩ := List.cons.inj split
      have found := Link.world_of_next goes
      obtain ⟨grows, accounts⟩ := ih remains (found ▸ Link.closed_after closed)
      rw [found] at grows accounts
      rw [List.cons_append, List.flatMap_cons]
      exact ⟨first.grows_after.trans grows,
        (Link.accounts closed).trans first.grows_after accounts grows⟩

namespace Session

/-- The moments of a run, each with its world and what is put down by then. -/
inductive Moment : Session -> List Step -> World -> List Entry -> Prop where
  /-- Before anything is done. -/
  | start (session : Session) (steps : List Step) : Moment session steps session.world []
  /-- After a call that a step leads to. -/
  | within {session : Session} {step : Step} (steps : List Step) {target : ConsoleTarget}
      {method : Method} {values : List HostValue} {arguments : List Argument}
      {console : ConsoleRef} {earlier later : List Link} {link : Link} {final : World}
      (calls : Calls step target method values)
      (converts : HostValue.toArguments values = .ok arguments)
      (means : session.consoleOf target = .ok (some console))
      (chain : Chain ⟨session.world, console, method, arguments⟩
        (earlier ++ link :: later) final) :
      Moment session (step :: steps) link.after ((earlier ++ [link]).flatMap Link.entries)
  /-- At any moment after a step. -/
  | later {session : Session} {step : Step} {steps : List Step} {world : World}
      {told : List Entry} (moment : Moment (session.step step).1 steps world told) :
      Moment session (step :: steps) world (session.entries step ++ told)

/-- The end of a run is a moment of it. -/
theorem moment_end (session : Session) (steps : List Step) :
    Moment session steps (session.run steps).1.world (session.chronicle steps) := by
  induction steps generalizing session with
  | nil => exact .start session []
  | cons step steps ih => exact .later (ih _)

namespace Moment

variable {session : Session} {steps : List Step} {world : World} {told : List Entry}

/-- What is put down by then is the beginning of what the whole run puts down. -/
theorem told_prefix (moment : Moment session steps world told) :
    told <+: session.chronicle steps := by
  induction moment with
  | start session steps => exact List.nil_prefix
  | @within session step steps target method values arguments console earlier later link final
      calls converts means chain =>
    obtain ⟨links, same, puts⟩ := session.tells.call step target method values arguments console
      calls converts means
    obtain ⟨rfl, -⟩ := same.unique chain
    have split : session.entries step =
        (earlier ++ [link]).flatMap Link.entries ++ later.flatMap Link.entries := by
      rw [puts, ← List.flatMap_append, List.append_assoc, List.singleton_append]
    rw [chronicle, split, List.append_assoc]
    exact List.prefix_append _ _
  | @later session step steps world told moment ih =>
    exact (List.prefix_append_right_inj _).2 ih

/-- What is put down by then tells what became of the slots and the logs. -/
theorem accounts (moment : Moment session steps world told) (closed : session.Closed)
    {earlier : List Entry}
    (tells : ∀ slot, session.world.application slot = application slot earlier) :
    session.world.Grows world ∧ Accounts session.world world told := by
  induction moment generalizing earlier with
  | start session steps => exact ⟨.refl _, .idle rfl rfl (fun _ _ => rfl) (fun _ _ => rfl)⟩
  | within steps calls converts means chain => exact chain.accounts_until rfl closed.world
  | @later session step steps world told moment ih =>
    have grown := session.step_grows step
    obtain ⟨-, first⟩ := step_forwards closed step (.refl _) tells
    obtain ⟨grows, rest⟩ := ih (step_closed closed step)
      (fun slot => by rw [first.slot, tells, application_append])
    exact ⟨grown.trans grows, first.trans grown rest grows⟩

/-- In a run from nothing, the slots and the logs are as what is put down tells. -/
theorem told_of_empty (moment : Moment {} steps world told) :
    (∀ slot, world.application slot = application slot told) ∧
      ∀ log, world.logs.row log = kept log { limit := (world.logs.row log).limit } told := by
  have start : ∀ slot, ({} : Session).world.application slot = application slot [] := fun _ => rfl
  obtain ⟨-, accounts⟩ := moment.accounts closed_empty start
  exact ⟨accounts.slot, accounts.log⟩

end Moment
end Session
end ScriptConsole
