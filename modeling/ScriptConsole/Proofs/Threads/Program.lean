import ScriptConsole.Proofs.Threads.History

/-!
# Threads follow their programs

The steps of one thread come in the order of its program, and within an action in the order
of its calls: a call looks up, reports, and what it leads to comes after that. `Ordered`
compares every step that was done with the point at which its thread is. `Follows` says that
there are no other steps: those of a program's own are its actions, one after the other, and
a call is made in consequence only of a report to a model that goes on to call.
-/

namespace ScriptConsole.Threads

/-- The place of a step within its action. -/
def Event.rank (event : Event) : Nat :=
  2 * event.origin.depth + if event.report?.isSome then 1 else 0

/-- The place within its action of the step that a thread does next. -/
def Phase.rank : Phase -> Nat
  | .ready => 0
  | .holding depth _ _ => 2 * depth + 1
  | .passing depth _ _ => 2 * depth + 2

/-- Of two steps of one thread, this one comes first in its program. -/
def Event.Before (first second : Event) : Prop :=
  first.origin.place < second.origin.place ∨
    first.origin.place = second.origin.place ∧ first.rank < second.rank

/-- The step is one that comes before the point at which its thread is. -/
def Event.IsPast (event : Event) (progress : Progress) : Prop :=
  event.origin.place < progress.place ∨
    event.origin.place = progress.place ∧ event.rank < progress.phase.rank

variable {programs : Nat -> List Action} {state : State} {thread : Nat} {turn : Turn}

theorem Calls.rank_eq {depth : Nat} {link : Link} (calls : Calls programs state thread depth link) :
    (state.threads thread).phase.rank = 2 * depth := by
  cases calls with
  | own ready next => rw [ready]; rfl
  | passedOn passing => rw [passing]; rfl

/-- A thread does the step at the point at which it is. -/
theorem Turns.rank_eq (turns : Turns programs state thread turn) :
    (eventOf state thread turn).rank = (state.threads thread).phase.rank := by
  cases turns with
  | silent calls nothing => exact calls.rank_eq.symm
  | finds calls found => exact calls.rank_eq.symm
  | reports holds last => rw [holds]; rfl
  | passes holds goes => rw [holds]; rfl
  | binds ready next => rw [ready]; rfl
  | clears ready next => rw [ready]; rfl

/-- Then it is further on. -/
theorem Turns.isPast_event (turns : Turns programs state thread turn) :
    (eventOf state thread turn).IsPast turn.progress := by
  cases turns with
  | silent calls nothing => exact .inl (Nat.lt_succ_self _)
  | finds calls found => exact .inr ⟨rfl, Nat.lt_succ_self _⟩
  | reports holds last => exact .inl (Nat.lt_succ_self _)
  | passes holds goes => exact .inr ⟨rfl, Nat.lt_succ_self _⟩
  | binds ready next => exact .inl (Nat.lt_succ_self _)
  | clears ready next => exact .inl (Nat.lt_succ_self _)

theorem Turns.before_event (turns : Turns programs state thread turn) {event : Event}
    (past : event.IsPast (state.threads thread)) : event.Before (eventOf state thread turn) := by
  unfold Event.Before
  rw [turns.rank_eq]
  exact past

theorem Event.Before.isPast {first second : Event} {progress : Progress}
    (before : first.Before second) (past : second.IsPast progress) : first.IsPast progress := by
  unfold Event.Before at before
  unfold Event.IsPast at past ⊢
  omega

/-- The steps that were done are past, and those of one thread are in the order of its
program. -/
structure Ordered (state : State) : Prop where
  past : ∀ event ∈ state.told, event.IsPast (state.threads event.origin.thread)
  pairwise : state.told.Pairwise fun first second =>
    first.origin.thread = second.origin.thread -> first.Before second

theorem Ordered.after (ordered : Ordered state) (turns : Turns programs state thread turn) :
    Ordered (after state thread turn) where
  past := by
    intro event done
    rcases List.mem_append.1 done with earlier | last
    · have past := ordered.past event earlier
      by_cases same : event.origin.thread = thread
      · rw [same] at past ⊢
        rw [threads_after_same]
        exact (turns.before_event past).isPast turns.isPast_event
      · rw [threads_after_of_ne same]
        exact past
    · rw [List.mem_singleton.1 last]
      exact threads_after_same ▸ turns.isPast_event
  pairwise := by
    refine List.pairwise_append.2 ⟨ordered.pairwise, List.pairwise_singleton _ _, ?_⟩
    intro event earlier last isLast same
    rw [List.mem_singleton.1 isLast] at same ⊢
    have past := ordered.past event earlier
    rw [show event.origin.thread = thread from same] at past
    exact turns.before_event past

/-- A call of which no report is past has made none. -/
theorem Ordered.reportsOf_eq_nil (ordered : Ordered state) {origin : Origin}
    (ahead : ∀ model report,
      ¬Event.IsPast ⟨origin, .reports model report⟩ (state.threads origin.thread)) :
    reportsOf origin state.told = [] := by
  rw [reportsOf, List.filterMap_eq_nil_iff]
  rintro ⟨source, deed⟩ done
  split
  · next same =>
    obtain rfl : source = origin := same
    cases deed with
    | reports model report => exact (ahead model report (ordered.past _ done)).elim
    | _ => rfl
  · rfl

/-- What an action begins with. -/
def Action.deed : Action -> Deed
  | .call console method arguments => .looksUp console method (Argument.join arguments)
  | .bind slot application => .binds slot application
  | .clear slot => .clears slot

/-- The step by which a thread begins an action, with the place of the action. -/
def Event.begins? (thread : Nat) (event : Event) : Option (Nat × Deed) :=
  if event.origin.thread = thread ∧ event.origin.depth = 0 ∧ event.report? = none then
    some (event.origin.place, event.deed)
  else none

/-- How many actions a thread has begun. -/
def Progress.begun (progress : Progress) : Nat :=
  if progress.phase = .ready then progress.place else progress.place + 1

/-- A model that echoes got the report of a call, and so goes on to call this console with
this text. -/
def PassedOn (origin : Origin) (console : ConsoleRef) (text : String) (told : List Event) : Prop :=
  ∃ log echo report, ⟨origin, .reports (.echoing log console echo) report⟩ ∈ told ∧
    text = Argument.join (World.echoArguments report.message)

/-- What was done is what the programs say, and what the models do in consequence. -/
structure Follows (programs : Nat -> List Action) (state : State) : Prop where
  /-- A thread begins the actions of its program one after the other. -/
  own : ∀ thread, state.told.filterMap (Event.begins? thread) =
    ((programs thread).take (state.threads thread).begun).mapIdx fun place action =>
      (place, action.deed)
  passing : ∀ thread depth console message,
    (state.threads thread).phase = .passing depth console message ->
    PassedOn ⟨thread, (state.threads thread).place, depth⟩ console
      (Argument.join (World.echoArguments message)) state.told
  /-- Any other call is made because a report was passed on. -/
  passedOn : ∀ thread place depth console method text earlier later,
    state.told = earlier ++ ⟨⟨thread, place, depth + 1⟩, .looksUp console method text⟩ :: later ->
    method = .info ∧ PassedOn ⟨thread, place, depth⟩ console text earlier

/-- How a step moves a thread on in its program. -/
inductive Moves (programs : Nat -> List Action) (state : State) (thread : Nat) (turn : Turn) :
    Prop where
  /-- It begins the next action. -/
  | begins {action : Action}
      (next : (programs thread)[(state.threads thread).begun]? = some action)
      (told : (eventOf state thread turn).begins? thread =
        some ((state.threads thread).begun, action.deed))
      (begun : turn.progress.begun = (state.threads thread).begun + 1)
  /-- It goes on with the action that was begun. -/
  | goesOn (told : (eventOf state thread turn).begins? thread = none)
      (begun : turn.progress.begun = (state.threads thread).begun)

theorem moves_of_ready {action : Action} (ready : (state.threads thread).phase = .ready)
    (next : (programs thread)[(state.threads thread).place]? = some action)
    (told : (eventOf state thread turn).begins? thread =
      some ((state.threads thread).place, action.deed))
    (onward : turn.progress.begun = (state.threads thread).place + 1) :
    Moves programs state thread turn := by
  have same : (state.threads thread).begun = (state.threads thread).place := if_pos ready
  rw [← same] at next told onward
  exact .begins next told onward

theorem moves_of_busy (busy : (state.threads thread).phase ≠ .ready)
    (told : (eventOf state thread turn).begins? thread = none)
    (onward : turn.progress.begun = (state.threads thread).place + 1) :
    Moves programs state thread turn :=
  .goesOn told (onward.trans (if_neg busy).symm)

/-- A call of the program's own is begun, and any other one goes on with what was begun. -/
theorem Calls.moves {depth : Nat} {link : Link} (calls : Calls programs state thread depth link)
    {world : World} {progress : Progress}
    (onward : progress.begun = (state.threads thread).place + 1) :
    Moves programs state thread
      ⟨world, progress, depth, .looksUp link.console link.method link.text⟩ := by
  cases calls with
  | own ready next => exact moves_of_ready ready next (if_pos ⟨rfl, rfl, rfl⟩) onward
  | passedOn passing =>
    refine moves_of_busy ?_ (if_neg fun begins => Nat.succ_ne_zero _ begins.2.1) onward
    rw [passing]
    exact Phase.noConfusion

/-- A report is no beginning. -/
theorem moves_of_report {depth : Nat} {model : LogModel} {report : Report}
    (holds : (state.threads thread).phase = .holding depth model report) {world : World}
    {progress : Progress} (onward : progress.begun = (state.threads thread).place + 1) :
    Moves programs state thread ⟨world, progress, depth, .reports model report⟩ := by
  refine moves_of_busy ?_ (if_neg fun begins => Option.some_ne_none _ begins.2.2) onward
  rw [holds]
  exact Phase.noConfusion

theorem Turns.moves (turns : Turns programs state thread turn) :
    Moves programs state thread turn := by
  cases turns with
  | silent calls nothing => exact calls.moves rfl
  | finds calls found => exact calls.moves rfl
  | reports holds last => exact moves_of_report holds rfl
  | passes holds goes => exact moves_of_report holds rfl
  | binds ready next => exact moves_of_ready ready next (if_pos ⟨rfl, rfl, rfl⟩) rfl
  | clears ready next => exact moves_of_ready ready next (if_pos ⟨rfl, rfl, rfl⟩) rfl

/-- A history that goes on for one step is split at that step, or before it. -/
theorem split_concat {told earlier later : List Event} {last event : Event}
    (split : told ++ [last] = earlier ++ event :: later) :
    (told = earlier ∧ last = event) ∨ ∃ rest, told = earlier ++ event :: rest := by
  rcases List.eq_nil_or_concat later with rfl | ⟨rest, final, rfl⟩
  · obtain ⟨same, ends⟩ := List.append_inj' split rfl
    exact .inl ⟨same, List.head_eq_of_cons_eq ends⟩
  · rw [List.concat_eq_append, ← List.cons_append, ← List.append_assoc] at split
    exact .inr ⟨rest, (List.append_inj' split rfl).1⟩

theorem PassedOn.concat {origin : Origin} {console : ConsoleRef} {text : String}
    {told : List Event} (passed : PassedOn origin console text told) (event : Event) :
    PassedOn origin console text (told ++ [event]) := by
  obtain ⟨log, echo, report, done, text_eq⟩ := passed
  exact ⟨log, echo, report, List.mem_append_left _ done, text_eq⟩

theorem Follows.own_after (follows : Follows programs state)
    (turns : Turns programs state thread turn) (other : Nat) :
    (after state thread turn).told.filterMap (Event.begins? other) =
      ((programs other).take ((after state thread turn).threads other).begun).mapIdx
        fun place action => (place, action.deed) := by
  rw [after, List.filterMap_append, follows.own other]
  by_cases same : other = thread
  · subst same
    simp only [if_true]
    cases turns.moves with
    | begins next told begun =>
      obtain ⟨inside, rfl⟩ := List.getElem?_eq_some_iff.1 next
      rw [begun, List.filterMap_cons, told, List.take_succ_eq_append_getElem inside,
        List.mapIdx_concat, List.length_take, Nat.min_eq_left (Nat.le_of_lt inside)]
      rfl
    | goesOn told begun =>
      rw [begun, List.filterMap_cons, told]
      exact List.append_nil _
  · have foreign : (eventOf state thread turn).begins? other = none :=
      if_neg fun begins => same begins.1.symm
    rw [List.filterMap_cons, foreign]
    simp only [if_neg same]
    exact List.append_nil _

theorem Follows.after (follows : Follows programs state)
    (turns : Turns programs state thread turn) : Follows programs (after state thread turn) where
  own := follows.own_after turns
  passing := by
    intro other depth console message passing
    by_cases same : other = thread
    · subst same
      rw [threads_after_same] at passing ⊢
      cases turns with
      | passes holds goes =>
        cases passing
        obtain ⟨log, echo, rfl, -⟩ := (World.next_receive_eq_some_iff _ _ _).1 goes
        exact ⟨log, echo, _, List.mem_append_right _ List.mem_cons_self, rfl⟩
      | _ => cases passing
    · rw [threads_after_of_ne same] at passing ⊢
      exact (follows.passing other depth console message passing).concat _
  passedOn := by
    intro other place depth console method text earlier later split
    obtain ⟨rfl, last⟩ | ⟨rest, before⟩ := split_concat split
    · obtain ⟨called, link, calls, -, origin, rfl, rfl, rfl⟩ := turns.calls_of_looksUp last
      cases calls with
      | own ready next => cases origin
      | passedOn passing =>
        cases origin
        exact ⟨rfl, follows.passing _ _ _ _ passing⟩
    · exact follows.passedOn other place depth console method text earlier rest before

end ScriptConsole.Threads
