import ScriptConsole.Proofs.Threads.Program

/-!
# Threads deliver every message at most once

Between the two steps of a call anything may happen to the slot. The invariant ties every
call in flight to what it has found: a thread that holds a report has looked it up, at a
point of the history at which the application with this error log was bound, and has done
nothing since (`Found`). A call that is not in flight has made the one report that it owes,
or none if it found nothing (`Settled`).
-/

namespace ScriptConsole.Threads

/-- The last step of its thread was that the call found this error log, to report this
there. What other threads did since does not matter. -/
inductive Found (start : World) (origin : Origin) (model : LogModel) (report : Report) :
    List Event -> Prop where
  | intro {earlier between : List Event} {console : ConsoleRef} {method : Method} {text : String}
      (finds : resolved start earlier console text = some (model, report))
      (others : ∀ event ∈ between, event.origin.thread ≠ origin.thread) :
      Found start origin model report
        (earlier ++ ⟨origin, .looksUp console method text⟩ :: between)

/-- A call that looked up after these earlier steps has made the one report that it owes, or
none if nothing was found, and it is over; or it still holds the report. -/
inductive Settled (start : World) (state : State) (earlier : List Event) (origin : Origin)
    (console : ConsoleRef) (text : String) : Prop where
  | finished (reported : reportsOf origin state.told = (resolved start earlier console text).toList)
      (released : ∀ model report, state.threads origin.thread ≠
        ⟨origin.place, .holding origin.depth model report⟩)
  | holding {model : LogModel} {report : Report}
      (finds : resolved start earlier console text = some (model, report))
      (unreported : reportsOf origin state.told = [])
      (holds : state.threads origin.thread = ⟨origin.place, .holding origin.depth model report⟩)

variable {programs : Nat -> List Action} {start : World} {state : State} {thread : Nat}
  {turn : Turn}

theorem Found.concat {origin : Origin} {model : LogModel} {report : Report} {told : List Event}
    (found : Found start origin model report told) {event : Event}
    (other : event.origin.thread ≠ origin.thread) :
    Found start origin model report (told ++ [event]) := by
  cases found with
  | intro finds others =>
    rw [List.append_assoc, List.cons_append]
    refine .intro finds fun following there => ?_
    rcases List.mem_append.1 there with before | last
    · exact others following before
    · exact List.mem_singleton.1 last ▸ other

/-- The invariant of threads that started in this world. -/
structure Delivers (programs : Nat -> List Action) (start : World) (state : State) : Prop where
  tells : Tells start state
  ordered : Ordered state
  follows : Follows programs state
  holding : ∀ thread depth model report,
    (state.threads thread).phase = .holding depth model report ->
    Found start ⟨thread, (state.threads thread).place, depth⟩ model report state.told
  settled : ∀ earlier origin console method text later,
    state.told = earlier ++ ⟨origin, .looksUp console method text⟩ :: later ->
    Settled start state earlier origin console text
  earned : ∀ earlier origin model report later,
    state.told = earlier ++ ⟨origin, .reports model report⟩ :: later ->
    Found start origin model report earlier

theorem nil_ne_split {earlier later : List Event} {event : Event} :
    [] ≠ earlier ++ event :: later :=
  (List.append_ne_nil_of_right_ne_nil earlier (List.cons_ne_nil event later)).symm

theorem reportsOf_concat_of_ne {origin : Origin} {told : List Event} {event : Event}
    (other : event.origin ≠ origin) : reportsOf origin (told ++ [event]) = reportsOf origin told := by
  rw [reportsOf_concat, if_neg other]
  exact List.append_nil _

/-- A thread reports only what it holds. -/
theorem Turns.holding_of_report (turns : Turns programs state thread turn) {model : LogModel}
    {report : Report} (reports : (eventOf state thread turn).report? = some (model, report)) :
    (state.threads thread).phase = .holding turn.depth model report := by
  cases turns with
  | reports holds last =>
    cases reports
    exact holds
  | passes holds goes =>
    cases reports
    exact holds
  | _ => cases reports

/-- What a thread holds, it reports in its next step, and then it does not hold it. -/
theorem Turns.report_of_holding (turns : Turns programs state thread turn) {depth : Nat}
    {model : LogModel} {report : Report}
    (holds : (state.threads thread).phase = .holding depth model report) :
    eventOf state thread turn =
        ⟨⟨thread, (state.threads thread).place, depth⟩, .reports model report⟩ ∧
      ∀ depth model report, turn.progress.phase ≠ .holding depth model report := by
  cases turns with
  | silent calls nothing => exact (calls.not_holding holds).elim
  | finds calls found => exact (calls.not_holding holds).elim
  | reports same last =>
    rw [holds] at same
    cases same
    exact ⟨rfl, fun _ _ _ => Phase.noConfusion⟩
  | passes same goes =>
    rw [holds] at same
    cases same
    exact ⟨rfl, fun _ _ _ => Phase.noConfusion⟩
  | binds ready next =>
    rw [holds] at ready
    cases ready
  | clears ready next =>
    rw [holds] at ready
    cases ready

/-- A thread that comes to hold a report was at the call that holds it. -/
theorem Turns.rank_of_holding (turns : Turns programs state thread turn) {depth : Nat}
    {model : LogModel} {report : Report}
    (holds : turn.progress.phase = .holding depth model report) :
    turn.progress.place = (state.threads thread).place ∧
      (state.threads thread).phase.rank = 2 * depth := by
  rw [← turns.rank_eq]
  cases turns with
  | finds calls found =>
    cases holds
    exact ⟨rfl, rfl⟩
  | _ => cases holds

/-- A call that does not hold its report does not make one. -/
theorem Turns.report?_of_released (turns : Turns programs state thread turn) {origin : Origin}
    (released : ∀ model report,
      state.threads thread ≠ ⟨origin.place, .holding origin.depth model report⟩)
    (itself : (eventOf state thread turn).origin = origin) :
    (eventOf state thread turn).report? = none := by
  cases reports : (eventOf state thread turn).report? with
  | none => rfl
  | some delivery =>
    have place : (state.threads thread).place = origin.place := congrArg Origin.place itself
    have depth : turn.depth = origin.depth := congrArg Origin.depth itself
    refine (released delivery.1 delivery.2 ?_).elim
    rw [← place, ← depth, ← turns.holding_of_report reports]

/-- A call that has looked up before does not come to hold a report again. -/
theorem Turns.released_of_isPast (turns : Turns programs state thread turn) {origin : Origin}
    {console : ConsoleRef} {method : Method} {text : String}
    (looked : Event.IsPast ⟨origin, .looksUp console method text⟩ (state.threads thread))
    (model : LogModel) (report : Report) :
    turn.progress ≠ ⟨origin.place, .holding origin.depth model report⟩ := by
  intro holds
  obtain ⟨place, rank⟩ := turns.rank_of_holding (congrArg Progress.phase holds)
  rw [holds] at place
  simp only [Event.IsPast, Event.rank, Event.report?, rank, ← place] at looked
  omega

namespace Delivers

theorem at_start (programs : Nat -> List Action) (world : World) :
    Delivers programs world { world } where
  tells := tells_start world
  ordered := ⟨fun _ done => (List.not_mem_nil done).elim, List.Pairwise.nil⟩
  follows := ⟨fun _ => rfl, fun _ _ _ _ passing => Phase.noConfusion passing,
    fun _ _ _ _ _ _ _ _ split => (nil_ne_split split).elim⟩
  holding := fun _ _ _ _ holds => nomatch holds
  settled := fun _ _ _ _ _ _ split => (nil_ne_split split).elim
  earned := fun _ _ _ _ _ split => (nil_ne_split split).elim

theorem holding_after (delivers : Delivers programs start state)
    (turns : Turns programs state thread turn) {other depth : Nat} {model : LogModel}
    {report : Report}
    (holds : ((after state thread turn).threads other).phase = .holding depth model report) :
    Found start ⟨other, ((after state thread turn).threads other).place, depth⟩ model report
      (after state thread turn).told := by
  by_cases same : other = thread
  · subst same
    rw [threads_after_same] at holds ⊢
    cases turns with
    | finds calls found =>
      cases holds
      rw [← delivers.tells.resolved_eq calls.world_eq] at found
      exact .intro found fun _ none => nomatch none
    | _ => cases holds
  · rw [threads_after_of_ne same] at holds ⊢
    exact (delivers.holding other depth model report holds).concat fun eq => same eq.symm

/-- A new call is settled: it has not reported, and it holds what it found. -/
theorem settled_new (delivers : Delivers programs start state) {depth : Nat} {link : Link}
    (calls : Calls programs state thread depth link) :
    Settled start (after state thread (turnOf link (state.threads thread) depth)) state.told
      ⟨thread, (state.threads thread).place, depth⟩ link.console link.text := by
  have resolves := delivers.tells.resolved_eq calls.world_eq
  have unreported : reportsOf ⟨thread, (state.threads thread).place, depth⟩
      (after state thread (turnOf link (state.threads thread) depth)).told = [] := by
    rw [after, reportsOf_concat, delivers.ordered.reportsOf_eq_nil]
    · rw [eventOf_turnOf]
      split <;> rfl
    · intro model report past
      have rank := calls.rank_eq
      simp only [Event.IsPast, Event.rank, Event.report?, rank] at past
      omega
  cases found : link.delivery with
  | none =>
    rw [found] at resolves
    refine .finished (by rw [unreported, resolves]; rfl) fun model report holds => ?_
    rw [threads_after_same, turnOf_silent found] at holds
    exact Phase.noConfusion (congrArg Progress.phase holds)
  | some delivery =>
    rw [found] at resolves
    refine .holding resolves unreported ?_
    rw [threads_after_same, turnOf_delivers found]

/-- A call that was settled before a step is settled after it. -/
theorem settled_old (delivers : Delivers programs start state)
    (turns : Turns programs state thread turn) {earlier later : List Event} {origin : Origin}
    {console : ConsoleRef} {method : Method} {text : String}
    (split : state.told = earlier ++ ⟨origin, .looksUp console method text⟩ :: later) :
    Settled start (after state thread turn) earlier origin console text := by
  have settled := delivers.settled _ _ _ _ _ _ split
  by_cases same : origin.thread = thread
  · subst same
    have looked : (Event.mk origin (.looksUp console method text)).IsPast
        (state.threads origin.thread) :=
      delivers.ordered.past _ (by rw [split]; exact List.mem_append_right _ List.mem_cons_self)
    cases settled with
    | finished reported released =>
      refine .finished ?_ fun model report holds => ?_
      · rw [after, reportsOf_concat, reported]
        split
        · next itself =>
          rw [turns.report?_of_released released itself, Option.toList_none, List.append_nil]
        · exact List.append_nil _
      · rw [threads_after_same] at holds
        exact turns.released_of_isPast looked model report holds
    | holding finds unreported holds =>
      obtain ⟨reports, released⟩ := turns.report_of_holding (congrArg Progress.phase holds)
      refine .finished ?_ fun model report still => ?_
      · rw [after, reportsOf_concat, unreported, reports, holds, if_pos rfl, finds]
        rfl
      · rw [threads_after_same] at still
        exact released _ _ _ (congrArg Progress.phase still)
  · have foreign : (eventOf state thread turn).origin ≠ origin := fun eq =>
      same (congrArg Origin.thread eq).symm
    have unchanged : (after state thread turn).threads origin.thread =
        state.threads origin.thread := threads_after_of_ne same
    cases settled with
    | finished reported released =>
      refine .finished ((reportsOf_concat_of_ne foreign).trans reported) ?_
      rwa [unchanged]
    | holding finds unreported holds =>
      refine .holding finds ((reportsOf_concat_of_ne foreign).trans unreported) ?_
      rwa [unchanged]

theorem after (delivers : Delivers programs start state)
    (turns : Turns programs state thread turn) :
    Delivers programs start (after state thread turn) where
  tells := delivers.tells.after turns.changes
  ordered := delivers.ordered.after turns
  follows := delivers.follows.after turns
  holding := fun _ _ _ _ => delivers.holding_after turns
  settled := by
    intro earlier origin console method text later split
    obtain ⟨rfl, last⟩ | ⟨rest, before⟩ := split_concat split
    · obtain ⟨depth, link, calls, rfl, rfl, rfl, rfl, rfl⟩ := turns.calls_of_looksUp last
      exact delivers.settled_new calls
    · exact delivers.settled_old turns before
  earned := by
    intro earlier origin model report later split
    obtain ⟨rfl, last⟩ | ⟨rest, before⟩ := split_concat split
    · have reports : (eventOf state thread turn).report? = some (model, report) := by
        rw [last]
        rfl
      have found := delivers.holding _ _ _ _ (turns.holding_of_report reports)
      obtain rfl : (eventOf state thread turn).origin = origin := congrArg Event.origin last
      exact found
    · exact delivers.earned earlier origin model report rest before

theorem step (delivers : Delivers programs start state) (thread : Nat) :
    Delivers programs start (step programs state thread) := by
  cases takes : turn? programs state thread with
  | none =>
    rw [Threads.step, takes]
    exact delivers
  | some turn =>
    rw [step_eq takes]
    exact delivers.after (turns takes)

theorem run (delivers : Delivers programs start state) (schedule : List Nat) :
    Delivers programs start (run programs state schedule) := by
  induction schedule generalizing state with
  | nil => exact delivers
  | cons thread schedule ih => exact ih (delivers.step thread)

end Delivers

/-- A thread that holds a report delivers it when it comes to its next step, whatever has
become of the slot. -/
theorem told_step_of_holding {depth : Nat} {model : LogModel} {report : Report}
    (holds : (state.threads thread).phase = .holding depth model report) :
    (step programs state thread).told = state.told ++
      [⟨⟨thread, (state.threads thread).place, depth⟩, .reports model report⟩] := by
  rw [step_eq (turn_of_holding holds)]
  rfl

/-- A thread that is ready begins its next action when it comes to its next step. -/
theorem told_step_of_ready {action : Action} (ready : (state.threads thread).phase = .ready)
    (next : (programs thread)[(state.threads thread).place]? = some action) :
    (step programs state thread).told = state.told ++
      [⟨⟨thread, (state.threads thread).place, 0⟩, action.deed⟩] := by
  cases action with
  | call console method arguments =>
    have calls : Calls programs state thread _ _ := .own ready next
    rw [step_eq calls.turn_eq, after, eventOf_turnOf]
    rfl
  | bind slot application =>
    simp only [step, turn?, ready, next, Option.map_some]
    rfl
  | clear slot =>
    simp only [step, turn?, ready, next, Option.map_some]
    rfl

/-- The reports of one thread to one log are in the order of its program. -/
theorem Ordered.reports (ordered : Ordered state) (log : LogRef) (thread : Nat) :
    (state.told.filter fun event =>
        event.origin.thread = thread ∧ (event.gives? log).isSome).Pairwise fun first second =>
      first.origin.place < second.origin.place ∨
        first.origin.place = second.origin.place ∧ first.origin.depth < second.origin.depth := by
  refine (ordered.pairwise.filter _).imp_of_mem fun {first second} firstIs secondIs before => ?_
  have ranked : ∀ event : Event, (event.gives? log).isSome ->
      event.rank = 2 * event.origin.depth + 1 := by
    rintro ⟨origin, deed⟩ gives
    cases deed with
    | reports model report => rfl
    | _ => cases gives
  simp only [List.mem_filter, decide_eq_true_eq] at firstIs secondIs
  obtain ⟨-, firstThread, firstGives⟩ := firstIs
  obtain ⟨-, secondThread, secondGives⟩ := secondIs
  have inOrder := before (firstThread.trans secondThread.symm)
  rw [Event.Before, ranked first firstGives, ranked second secondGives] at inOrder
  omega

/-- However the steps of threads are interleaved, and whatever they do to the slots, each
message is delivered at most once, and to no stranger. The history has just the calls of the
programs, with the texts of their arguments, and those that echoing models make in
consequence, and it tells what is in every slot. A call that looked up is settled: it made
the one report that it owes to the error log of the application that was bound at that point,
or none if there was no error log; or it still holds that report, and delivers it in the next
step of its thread. No report is made but by a call that found its error log, before anything
that was done to the slot since. Every log holds as many of the reports that it was given as
its limit leaves. No step of a thread is done twice, and they are in the order of its
program; so are the reports of one thread in one log. A thread that is ready begins its next
action in its next step, and if no other thread comes in between, its call does to the world
what a call does. -/
theorem threads_deliver_at_most_once (programs : Nat -> List Action) (world : World)
    (schedule : List Nat) :
    let final := run programs { world } schedule
    (∀ thread, final.told.filterMap (Event.begins? thread) =
        ((programs thread).take (final.threads thread).begun).mapIdx fun place action =>
          (place, action.deed)) ∧
      (∀ thread place depth console method text earlier later,
        final.told = earlier ++
            ⟨⟨thread, place, depth + 1⟩, .looksUp console method text⟩ :: later ->
        method = .info ∧ PassedOn ⟨thread, place, depth⟩ console text earlier) ∧
      (∀ slot, final.world.application slot = bound world slot final.told) ∧
      (∀ earlier origin console method text later,
        final.told = earlier ++ ⟨origin, .looksUp console method text⟩ :: later ->
        Settled world final earlier origin console text) ∧
      (∀ thread depth model report,
        (final.threads thread).phase = .holding depth model report ->
        (step programs final thread).told = final.told ++
          [⟨⟨thread, (final.threads thread).place, depth⟩, .reports model report⟩]) ∧
      (∀ earlier origin model report later,
        final.told = earlier ++ ⟨origin, .reports model report⟩ :: later ->
        Found world origin model report earlier) ∧
      (∀ log, (final.world.logs.row log).limit = (world.logs.row log).limit ∧
        ∀ before, (world.logs.row log).Holds before ->
          (final.world.logs.row log).Holds (before ++ given log final.told)) ∧
      (final.told.Pairwise fun first second =>
        first.origin.thread = second.origin.thread -> first.Before second) ∧
      (∀ log thread, (final.told.filter fun event =>
          event.origin.thread = thread ∧ (event.gives? log).isSome).Pairwise fun first second =>
        first.origin.place < second.origin.place ∨
          first.origin.place = second.origin.place ∧
            first.origin.depth < second.origin.depth) ∧
      (∀ thread action, (final.threads thread).phase = .ready ->
        (programs thread)[(final.threads thread).place]? = some action ->
        (step programs final thread).told = final.told ++
          [⟨⟨thread, (final.threads thread).place, 0⟩, action.deed⟩]) ∧
      ∀ thread console method arguments, (final.threads thread).phase = .ready ->
        (programs thread)[(final.threads thread).place]? =
          some (.call console method arguments) ->
        LeavesAlone programs final thread (final.world.call console method arguments).1 := by
  intro final
  have delivers : Delivers programs world final := (Delivers.at_start programs world).run schedule
  exact ⟨delivers.follows.own, delivers.follows.passedOn, delivers.tells.slot, delivers.settled,
    fun _ _ _ _ => told_step_of_holding, delivers.earned,
    fun log => ⟨delivers.tells.limit log, delivers.tells.log log⟩, delivers.ordered.pairwise,
    fun log thread => delivers.ordered.reports log thread,
    fun _ _ => told_step_of_ready, fun _ _ _ _ => run_alone⟩

/-- Two calls have found the first application when another one is bound; both report to the
first. The second application is found after that, and gets its report when the slot has
been cleared. At the start the first call is ready; it is put down when its thread comes to
its next step, and it would do what it does if it were alone. -/
theorem threads_deliver_at_most_once_late :
    let world : World := ({} : World)
      |>.addSlot.1
      |>.addLog none |>.1
      |>.addLog (some 1) |>.1
      |>.addApplication { logs := some (.memory ⟨0⟩) } |>.1
      |>.addApplication { logs := some (.memory ⟨1⟩) } |>.1
      |>.addConsole (.fallback ⟨0⟩ ⟨"host"⟩) |>.1
      |>.setApplication ⟨0⟩ ⟨0⟩
    let programs : Nat -> List Action := fun thread =>
      match thread with
      | 0 => [.call ⟨0⟩ .warn [.string "x"], .call ⟨0⟩ .log [.string "z"]]
      | 1 => [.bind ⟨0⟩ ⟨1⟩, .clear ⟨0⟩]
      | 2 => [.call ⟨0⟩ .info [.string "y"]]
      | _ => []
    let final := run programs { world } [0, 2, 1, 2, 0, 0, 1, 0]
    (final.world.logs.row ⟨0⟩).entries = [⟨"y", "host"⟩, ⟨"x", "host"⟩] ∧
      (final.world.logs.row ⟨1⟩).entries = [⟨"z", "host"⟩] ∧
      final.world.application ⟨0⟩ = none ∧
      Found world ⟨0, 0, 0⟩ (.memory ⟨0⟩) ⟨"x", "host"⟩ (final.told.take 4) ∧
      Found world ⟨0, 1, 0⟩ (.memory ⟨1⟩) ⟨"z", "host"⟩ (final.told.take 7) ∧
      (step programs { world } 0).told = [⟨⟨0, 0, 0⟩, .looksUp ⟨0⟩ .warn "x"⟩] ∧
      LeavesAlone programs { world } 0 (world.call ⟨0⟩ .warn [.string "x"]).1 := by
  intro world programs final
  obtain ⟨-, -, slot, -, -, found, logs, -, -, -, -⟩ :=
    threads_deliver_at_most_once programs world [0, 2, 1, 2, 0, 0, 1, 0]
  obtain ⟨-, -, -, -, -, -, -, -, -, begins, alone⟩ :=
    threads_deliver_at_most_once programs world []
  have first := (logs ⟨0⟩).2 [] (MemoryLog.holds_empty none)
  have second := (logs ⟨1⟩).2 [] (MemoryLog.holds_empty (some 1))
  unfold MemoryLog.Holds at first second
  refine ⟨?_, ?_, ?_, ?_, ?_, begins 0 _ rfl rfl, alone 0 ⟨0⟩ .warn _ rfl rfl⟩
  · rw [first]
    decide +kernel
  · rw [second]
    decide +kernel
  · rw [slot]
    decide +kernel
  · exact found _ _ _ _ (final.told.drop 5) (by decide +kernel)
  · exact found _ _ _ _ (final.told.drop 8) (by decide +kernel)

end ScriptConsole.Threads
