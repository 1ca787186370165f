import ScriptConsole.Proofs.World.Host
import ScriptConsole.World.Threads

/-!
# Steps of threads

`turn?` is the next step of a thread, and `turns` tells what it may be. A thread that is
not interrupted makes its calls as `World.call` does: `run_alone`.
-/

namespace ScriptConsole.Threads

variable (programs : Nat -> List Action) (state : State) (thread : Nat)

/-- The call that a thread makes next. -/
inductive Calls : (depth : Nat) -> Link -> Prop where
  | own {console : ConsoleRef} {method : Method} {arguments : List Argument}
      (ready : (state.threads thread).phase = .ready)
      (next : (programs thread)[(state.threads thread).place]? =
        some (.call console method arguments)) :
      Calls 0 ⟨state.world, console, method, arguments⟩
  | passedOn {depth : Nat} {console : ConsoleRef} {message : String}
      (passing : (state.threads thread).phase = .passing depth console message) :
      Calls (depth + 1) ⟨state.world, console, .info, World.echoArguments message⟩

/-- What a step of a thread may be. -/
inductive Turns : Turn -> Prop where
  /-- A call finds nothing to report to. -/
  | silent {depth : Nat} {link : Link} (calls : Calls programs state thread depth link)
      (nothing : link.delivery = none) :
      Turns ⟨link.after, (state.threads thread).finish, depth,
        .looksUp link.console link.method link.text⟩
  /-- A call finds an error log, and nothing changes yet. -/
  | finds {depth : Nat} {link : Link} {model : LogModel} {report : Report}
      (calls : Calls programs state thread depth link)
      (found : link.delivery = some (model, report)) :
      Turns ⟨link.world, { state.threads thread with phase := .holding depth model report }, depth,
        .looksUp link.console link.method link.text⟩
  /-- A report is delivered, and no call is made in consequence. -/
  | reports {depth : Nat} {model : LogModel} {report : Report}
      (holds : (state.threads thread).phase = .holding depth model report)
      (last : (state.world.receive model report).next = none) :
      Turns ⟨(state.world.receive model report).world, (state.threads thread).finish, depth,
        .reports model report⟩
  /-- A report is delivered, and the model goes on to call a console. -/
  | passes {depth : Nat} {model : LogModel} {report : Report} {console : ConsoleRef}
      (holds : (state.threads thread).phase = .holding depth model report)
      (goes : (state.world.receive model report).next = some console) :
      Turns ⟨(state.world.receive model report).world,
        { state.threads thread with phase := .passing depth console report.message }, depth,
        .reports model report⟩
  | binds {slot : SlotRef} {application : ApplicationRef}
      (ready : (state.threads thread).phase = .ready)
      (next : (programs thread)[(state.threads thread).place]? = some (.bind slot application)) :
      Turns ⟨state.world.setApplication slot application, (state.threads thread).finish, 0,
        .binds slot application⟩
  | clears {slot : SlotRef} (ready : (state.threads thread).phase = .ready)
      (next : (programs thread)[(state.threads thread).place]? = some (.clear slot)) :
      Turns ⟨state.world.clearApplication slot, (state.threads thread).finish, 0, .clears slot⟩

variable {programs state thread}

/-- The step by which a thread makes a call. -/
def turnOf (link : Link) (progress : Progress) (depth : Nat) : Turn :=
  lookUp link.world progress depth link.console link.method link.arguments

theorem turnOf_silent {progress : Progress} {depth : Nat} {link : Link}
    (nothing : link.delivery = none) :
    turnOf link progress depth =
      ⟨link.after, progress.finish, depth, .looksUp link.console link.method link.text⟩ := by
  simp only [turnOf, lookUp, link.arrive_eq, nothing]
  rfl

theorem turnOf_delivers {progress : Progress} {depth : Nat} {link : Link}
    {model : LogModel} {report : Report} (found : link.delivery = some (model, report)) :
    turnOf link progress depth =
      ⟨link.world, { progress with phase := .holding depth model report }, depth,
        .looksUp link.console link.method link.text⟩ := by
  simp only [turnOf, lookUp, link.arrive_eq, found]
  rfl

/-- Whatever a call finds, it is put down as one that looks up. -/
theorem eventOf_turnOf {progress : Progress} {depth : Nat} {link : Link} :
    eventOf state thread (turnOf link progress depth) =
      ⟨⟨thread, (state.threads thread).place, depth⟩,
        .looksUp link.console link.method link.text⟩ := by
  cases found : link.delivery with
  | none =>
    rw [turnOf_silent found]
    rfl
  | some delivery =>
    rw [turnOf_delivers found]
    rfl

theorem Calls.world_eq {depth : Nat} {link : Link} (calls : Calls programs state thread depth link) :
    link.world = state.world := by
  cases calls <;> rfl

/-- A thread that holds a report makes no call before it has delivered it. -/
theorem Calls.not_holding {depth held : Nat} {link : Link} {model : LogModel} {report : Report}
    (calls : Calls programs state thread depth link) :
    (state.threads thread).phase ≠ .holding held model report := by
  cases calls with
  | own ready next =>
    rw [ready]
    exact Phase.noConfusion
  | passedOn passing =>
    rw [passing]
    exact Phase.noConfusion

theorem Calls.turns {depth : Nat} {link : Link} (calls : Calls programs state thread depth link) :
    Turns programs state thread (turnOf link (state.threads thread) depth) := by
  cases found : link.delivery with
  | none =>
    rw [turnOf_silent found]
    exact .silent calls found
  | some delivery =>
    rw [turnOf_delivers found]
    exact .finds calls found

theorem Calls.turn_eq {depth : Nat} {link : Link} (calls : Calls programs state thread depth link) :
    turn? programs state thread = some (turnOf link (state.threads thread) depth) := by
  cases calls with
  | own ready next =>
    simp only [turn?, ready, next, Option.map_some]
    rfl
  | passedOn passing =>
    simp only [turn?, passing]
    rfl

theorem turn_of_holding {depth : Nat} {model : LogModel} {report : Report}
    (holds : (state.threads thread).phase = .holding depth model report) :
    turn? programs state thread =
      some (deliver state.world (state.threads thread) depth model report) := by
  simp only [turn?, holds]

/-- A step of a thread is one of these. -/
theorem turns {turn : Turn} (takes : turn? programs state thread = some turn) :
    Turns programs state thread turn := by
  cases phase : (state.threads thread).phase with
  | holding depth model report =>
    rw [turn_of_holding phase] at takes
    cases takes
    cases goes : (state.world.receive model report).next with
    | none =>
      simp only [deliver, goes]
      exact .reports phase goes
    | some console =>
      simp only [deliver, goes]
      exact .passes phase goes
  | passing depth console message =>
    have calls : Calls programs state thread _ _ := .passedOn phase
    rw [calls.turn_eq] at takes
    cases takes
    exact calls.turns
  | ready =>
    cases next : (programs thread)[(state.threads thread).place]? with
    | none => simp [turn?, phase, next] at takes
    | some action =>
      cases action with
      | call console method arguments =>
        have calls : Calls programs state thread _ _ := .own phase next
        rw [calls.turn_eq] at takes
        cases takes
        exact calls.turns
      | bind slot application =>
        simp only [turn?, phase, next, Option.map_some, Option.some.injEq] at takes
        exact takes ▸ .binds phase next
      | clear slot =>
        simp only [turn?, phase, next, Option.map_some, Option.some.injEq] at takes
        exact takes ▸ .clears phase next

/-- A thread looks up only for the call that it makes next. -/
theorem Turns.calls_of_looksUp {turn : Turn} (turns : Turns programs state thread turn)
    {origin : Origin} {console : ConsoleRef} {method : Method} {text : String}
    (looks : eventOf state thread turn = ⟨origin, .looksUp console method text⟩) :
    ∃ depth link, Calls programs state thread depth link ∧
      turn = turnOf link (state.threads thread) depth ∧
      origin = ⟨thread, (state.threads thread).place, depth⟩ ∧
      link.console = console ∧ link.method = method ∧ link.text = text := by
  cases turns with
  | @silent depth link calls nothing =>
    cases looks
    exact ⟨depth, link, calls, (turnOf_silent nothing).symm, rfl, rfl, rfl, rfl⟩
  | @finds depth link model report calls found =>
    cases looks
    exact ⟨depth, link, calls, (turnOf_delivers found).symm, rfl, rfl, rfl, rfl⟩
  | _ => cases looks

theorem step_eq {turn : Turn} (takes : turn? programs state thread = some turn) :
    step programs state thread = after state thread turn := by
  rw [step, takes]

theorem threads_after_same {turn : Turn} :
    (after state thread turn).threads thread = turn.progress :=
  if_pos rfl

theorem threads_after_of_ne {turn : Turn} {other : Nat} (distinct : other ≠ thread) :
    (after state thread turn).threads other = state.threads other :=
  if_neg distinct

/-! ## A thread alone -/

/-- After some steps of only this thread it has done its action, and this is the world. -/
def LeavesAlone (programs : Nat -> List Action) (state : State) (thread : Nat) (world : World) :
    Prop :=
  ∃ steps, let final := run programs state (List.replicate steps thread)
    final.world = world ∧ final.threads thread = (state.threads thread).finish ∧
      ∀ other, other ≠ thread -> final.threads other = state.threads other

/-- A step of the thread may come first. -/
theorem LeavesAlone.step {turn : Turn} {world : World}
    (takes : turn? programs state thread = some turn)
    (leaves : LeavesAlone programs (after state thread turn) thread world)
    (place : turn.progress.place = (state.threads thread).place) :
    LeavesAlone programs state thread world := by
  obtain ⟨steps, reaches, finishes, others⟩ := leaves
  refine ⟨steps + 1, ?_⟩
  simp only [List.replicate_succ, run, List.foldl_cons, step_eq takes]
  refine ⟨reaches, ?_, fun other distinct => ?_⟩
  · refine finishes.trans ?_
    rw [threads_after_same, Progress.finish, place]
    rfl
  · exact (others other distinct).trans (threads_after_of_ne distinct)

/-- A step may be the last of its action. -/
theorem leavesAlone_of_finish {turn : Turn} (takes : turn? programs state thread = some turn)
    (finishes : turn.progress = (state.threads thread).finish) :
    LeavesAlone programs state thread turn.world := by
  refine ⟨1, ?_⟩
  simp only [List.replicate_succ, List.replicate_zero, run, List.foldl_cons, List.foldl_nil,
    step_eq takes]
  exact ⟨rfl, threads_after_same.trans finishes, fun _ => threads_after_of_ne⟩

theorem deliver_of_end {progress : Progress} {depth : Nat} {world : World} {model : LogModel}
    {report : Report} (last : (world.receive model report).next = none) :
    (deliver world progress depth model report).progress = progress.finish := by
  simp only [deliver, last]

theorem deliver_of_next {progress : Progress} {depth : Nat} {world : World} {model : LogModel}
    {report : Report} {console : ConsoleRef}
    (goes : (world.receive model report).next = some console) :
    (deliver world progress depth model report).progress =
      { progress with phase := .passing depth console report.message } := by
  simp only [deliver, goes]

/-- A call that has found an error log goes on from a state that only differs in this. -/
theorem Calls.exists_holding {depth : Nat} {link : Link} {model : LogModel} {report : Report}
    (calls : Calls programs state thread depth link)
    (found : link.delivery = some (model, report)) :
    ∃ held : State, held.world = link.world ∧
      held.threads thread = { state.threads thread with phase := .holding depth model report } ∧
      ∀ world, LeavesAlone programs held thread world -> LeavesAlone programs state thread world := by
  have looks := calls.turn_eq
  rw [turnOf_delivers found] at looks
  exact ⟨_, rfl, threads_after_same, fun _ leaves => leaves.step looks rfl⟩

/-- The two steps of each call of a chain, one after the other, lead where the chain leads. -/
theorem Calls.leavesAlone {depth : Nat} {link : Link} {links : List Link} {final : World}
    (calls : Calls programs state thread depth link) (chain : Chain link links final) :
    LeavesAlone programs state thread final := by
  induction chain generalizing state depth with
  | @last link ends =>
    cases found : link.delivery with
    | none =>
      have looks := calls.turn_eq
      rw [turnOf_silent found] at looks
      exact leavesAlone_of_finish looks rfl
    | some delivery =>
      obtain ⟨model, report⟩ := delivery
      obtain ⟨held, world_eq, thread_eq, back⟩ := calls.exists_holding found
      have last : (held.world.receive model report).next = none := by
        rw [Link.next_of_delivery found] at ends
        exact world_eq ▸ Option.map_eq_none_iff.1 ends
      have reports : turn? programs held thread =
          some (deliver held.world (held.threads thread) depth model report) :=
        turn_of_holding (congrArg Progress.phase thread_eq)
      rw [Link.after, Link.reception_of_delivery found, ← world_eq]
      exact back _ (leavesAlone_of_finish reports (deliver_of_end last))
  | @further link following links final goes rest ih =>
    obtain ⟨⟨model, report⟩, found⟩ : ∃ delivery, link.delivery = some delivery := by
      cases found : link.delivery with
      | none =>
        rw [Link.next_of_silence found] at goes
        cases goes
      | some delivery => exact ⟨delivery, rfl⟩
    obtain ⟨held, world_eq, thread_eq, back⟩ := calls.exists_holding found
    rw [Link.next_of_delivery found] at goes
    obtain ⟨console, next, rfl⟩ := Option.map_eq_some_iff.1 goes
    rw [← world_eq] at next
    have reports : turn? programs held thread =
        some (deliver held.world (held.threads thread) depth model report) :=
      turn_of_holding (congrArg Progress.phase thread_eq)
    let passed := after held thread (deliver held.world (held.threads thread) depth model report)
    have passing : (passed.threads thread).phase =
        .passing depth console report.message := by
      rw [threads_after_same, deliver_of_next next]
    have onward : Calls programs passed thread (depth + 1) ⟨(link.world.receive model report).world,
        console, .info, World.echoArguments link.text⟩ := by
      rw [← Link.message_of_delivery found, ← world_eq]
      exact .passedOn passing
    exact back _ (.step reports (ih onward) (by rw [deliver_of_next next]))

/-- A thread that is not interrupted makes a call as the world does. -/
theorem run_alone {console : ConsoleRef} {method : Method} {arguments : List Argument}
    (ready : (state.threads thread).phase = .ready)
    (next : (programs thread)[(state.threads thread).place]? =
      some (.call console method arguments)) :
    LeavesAlone programs state thread (state.world.call console method arguments).1 := by
  obtain ⟨links, chain, -⟩ := state.world.call_follows_chain console method arguments
  exact (Calls.own ready next).leavesAlone chain

end ScriptConsole.Threads
