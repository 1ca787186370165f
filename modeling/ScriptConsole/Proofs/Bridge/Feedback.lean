import ScriptConsole.Bridge.Wiring
import ScriptConsole.Proofs.World.Traced

/-!
# What comes back to the subscriber

The console of a bridge may have an application that traces its reports, and then the calls
of the bridge are traced themselves. `Reacts` says what comes of some events without saying
how it is found out: each is one call on the console of the subscriber, and what is traced
of that call comes before any other event. `reacts_emitAll` says that a process does this.
-/

namespace ScriptConsole

/-- Make the calls of bridges one after the other. -/
def World.makeAll (world : World) : List BridgeCall -> World × List Occurrence
  | [] => (world, [])
  | call :: rest =>
    let (world, first) := world.make call
    let (world, more) := world.makeAll rest
    (world, first ++ more)

theorem World.makeAll_append (world : World) (first second : List BridgeCall) :
    world.makeAll (first ++ second) =
      let (middle, before) := world.makeAll first
      let (final, after) := middle.makeAll second
      (final, before ++ after) := by
  induction first generalizing world with
  | nil => rfl
  | cons call rest ih => simp only [List.cons_append, makeAll, ih, List.append_assoc]

/-- What comes of some trace events outside of all spans, in a process with this subscriber:
the calls that are made, in order, and the world after them. -/
inductive Reacts (subscriber : Option ConsoleRef) :
    World -> List Trace.Event -> List BridgeCall -> World -> Prop where
  | quiet (world : World) : Reacts subscriber world [] [] world
  /-- Nobody listens. -/
  | unheard {world : World} {events : List Trace.Event} (deaf : subscriber = none) :
      Reacts subscriber world events [] world
  /-- The first event is shown, and what is traced of that comes next. -/
  | shown {world final : World} {console : ConsoleRef} {event : Trace.Event}
      {events : List Trace.Event} {calls : List BridgeCall}
      (heard : subscriber = some console) (settles : ¬world.Repeats console)
      (rest : Reacts subscriber (world.make (event.call console [])).1
        (traced (world.make (event.call console [])).2 ++ events) calls final) :
      Reacts subscriber world (event :: events) (event.call console [] :: calls) final
  /-- The console of the subscriber traces whatever it is shown, so the event is followed
  by others without end, and none of them changes anything. -/
  | endless {world : World} {console : ConsoleRef} {event : Trace.Event}
      (heard : subscriber = some console) (repeats : world.Repeats console) :
      Reacts subscriber world [event] [event.call console []] world

namespace Reacts

variable {subscriber : Option ConsoleRef} {world final : World} {events : List Trace.Event}
  {calls : List BridgeCall}

/-- Nothing else is done than to make the calls. -/
theorem makes (reacts : Reacts subscriber world events calls final) :
    final = (world.makeAll calls).1 := by
  induction reacts with
  | quiet => rfl
  | unheard => rfl
  | shown heard settles rest ih => exact ih
  | endless heard repeats => exact (repeats.call _ _).1.symm

/-- All calls show events, on the console of the subscriber. -/
theorem shows (reacts : Reacts subscriber world events calls final) :
    ∀ call ∈ calls, call.bridge = .events ∧ subscriber = some call.console := by
  induction reacts with
  | quiet => exact fun call none => nomatch none
  | unheard => exact fun call none => nomatch none
  | shown heard settles rest ih => exact List.forall_mem_cons.2 ⟨⟨rfl, heard⟩, ih⟩
  | endless heard repeats => exact List.forall_mem_singleton.2 ⟨rfl, heard⟩

/-- Without an event nothing is done. -/
theorem of_nil (reacts : Reacts subscriber world [] calls final) :
    calls = [] ∧ final = world := by
  cases reacts with
  | quiet => exact ⟨rfl, rfl⟩
  | unheard => exact ⟨rfl, rfl⟩

end Reacts

/-- Where nothing was traced, the console does not trace all that it is shown. -/
theorem World.not_repeats_of_silent {world : World} {call : BridgeCall}
    (silent : traced (world.make call).2 = []) : ¬world.Repeats call.console := by
  intro repeats
  obtain ⟨-, event, told⟩ := repeats.call call.method call.arguments
  rw [make, told] at silent
  cases silent

theorem World.not_repeats_of_spent {world : World} {call : BridgeCall}
    (spent : (world.make call).1.budget < world.budget) : ¬world.Repeats call.console := by
  intro repeats
  rw [make, (repeats.call call.method call.arguments).1] at spent
  exact Nat.lt_irrefl _ spent

/-- An event is shown with all that follows from it. The induction is on the budget, as the
calls are: every further event but those without end is paid for. -/
theorem World.reacts_showTraced (world : World) (console : ConsoleRef) (event : Trace.Event) :
    Reacts (some console) world [event] (world.showTraced console event).2
      (world.showTraced console event).1 := by
  fun_induction World.showTraced world console event with
  | case1 world event call made silent =>
    have none : traced made.2 = [] := List.head?_eq_none_iff.1 silent
    refine .shown rfl (not_repeats_of_silent none) ?_
    rw [none]
    exact .quiet _
  | case2 world event call made next told spent final calls result ih =>
    rw [result] at ih
    have few := world.length_traced_call_le call.console call.method call.arguments
    obtain ⟨others, all⟩ := List.head?_eq_some_iff.1 told
    have alone : others = [] := by
      rw [show traced (world.call _ _ _).2 = next :: others from all] at few
      exact List.length_eq_zero_iff.1 (Nat.le_zero.1 (Nat.le_of_succ_le_succ few))
    refine .shown rfl (not_repeats_of_spent spent) ?_
    rw [all, alone]
    exact ih
  | case3 world event call made next told unspent =>
    have repeats : world.Repeats console :=
      repeats_of_traced_call (List.mem_of_mem_head? told) unspent
    have same : made.1 = world := (repeats.call call.method call.arguments).1
    rw [same]
    exact .endless rfl repeats

namespace Wiring

/-- What comes of the event that was traced, if any was. -/
theorem reacts_emitAll (wiring : Wiring) {events : List Trace.Event} (few : events.length ≤ 1) :
    Reacts wiring.subscriber wiring.world events (wiring.emitAll events).2
      (wiring.emitAll events).1.world := by
  match events, few with
  | [], _ => exact .quiet _
  | [event], _ =>
    simp only [emitAll, List.append_nil, emit]
    cases heard : wiring.subscriber with
    | none => exact .unheard rfl
    | some console => exact wiring.world.reacts_showTraced console event

end Wiring

end ScriptConsole
