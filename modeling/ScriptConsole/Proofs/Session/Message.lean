import Mathlib.Data.List.Forall2
import ScriptConsole.Proofs.Session.Refinement

/-!
# Only the message matters

A fallback console passes on the message of a call and nothing else of it. So two scripts
cannot be told apart if they differ only in how fallback consoles are called: by which
method, whether by its name, through which target, and with which arguments, as long as
the message is the same. They give the same replies and the same trace, step by step, and
end in the same session.
-/

namespace ScriptConsole

namespace Link

variable {link : Link} {slot : SlotRef} {config : Config} {arguments : List Argument}

/-- A fallback console reports the same whichever method it is called by, and with whichever
arguments, if only their message is the same. -/
theorem delivery_of_message
    (found : link.world.consoles.row link.console = .fallback slot config) (method : Method)
    (same : Argument.join arguments = link.text) :
    { link with method, arguments }.delivery = link.delivery := by
  rw [delivery_of_fallback found]
  simp only [delivery, found, text, same]

theorem reception_of_message
    (found : link.world.consoles.row link.console = .fallback slot config) (method : Method)
    (same : Argument.join arguments = link.text) :
    { link with method, arguments }.reception = link.reception := by
  have delivery := delivery_of_message found method same
  cases delivers : link.delivery with
  | none =>
    rw [reception_of_silence found delivers]
    exact reception_of_silence found (delivery.trans delivers)
  | some report =>
    rw [reception_of_delivery delivers]
    exact reception_of_delivery (delivery.trans delivers)

theorem next_of_message
    (found : link.world.consoles.row link.console = .fallback slot config) (method : Method)
    (same : Argument.join arguments = link.text) :
    { link with method, arguments }.next = link.next := by
  simp only [next, after, reception_of_message found method same]
  simp only [text, same]

/-- Only the call itself shows the method. -/
theorem occurrences_of_message
    (found : link.world.consoles.row link.console = .fallback slot config) (method : Method)
    (same : Argument.join arguments = link.text) :
    { link with method, arguments }.occurrences =
      .called link.console method link.text :: link.occurrences.tail := by
  simp only [occurrences, delivery_of_message found method same,
    reception_of_message found method same]
  simp only [text, same]
  rfl

end Link

/-- The chain of a call of a fallback console is that of any other call of it with the same
message, except for its first link. -/
theorem Chain.of_message {link : Link} {links : List Link} {final : World}
    (chain : Chain link links final) {slot : SlotRef} {config : Config}
    (found : link.world.consoles.row link.console = .fallback slot config) (method : Method)
    {arguments : List Argument} (same : Argument.join arguments = link.text) :
    ∃ rest, links = link :: rest ∧
      Chain { link with method, arguments } ({ link with method, arguments } :: rest) final := by
  have follows := Link.next_of_message found method same
  cases chain with
  | last ends =>
    exact ⟨[], rfl, .single (follows.trans ends)
      (congrArg Reception.world (Link.reception_of_message found method same))⟩
  | further goes rest => exact ⟨_, rfl, .further (follows.trans goes) rest⟩

/-- What comes of a call of a fallback console depends on the message only. The method is
put down with the call itself and is not seen again. -/
theorem World.call_of_message {world : World} {console : ConsoleRef} {slot : SlotRef}
    {config : Config} (found : world.consoles.row console = .fallback slot config)
    (message : String) :
    ∃ after more, ∀ method arguments, Argument.join arguments = message ->
      world.call console method arguments = (after, .called console method message :: more) := by
  obtain ⟨links, chain, -⟩ := world.call_follows_chain console .log [.string message]
  refine ⟨(world.call console .log [.string message]).1,
    (links.flatMap Link.occurrences).tail, ?_⟩
  intro method arguments joins
  have same := joins.trans (Argument.join_string message).symm
  obtain ⟨others, again, happens⟩ := world.call_follows_chain console method arguments
  obtain ⟨rest, rfl, renamed⟩ := chain.of_message found method same
  obtain ⟨rfl, ends⟩ := again.unique renamed
  refine Prod.ext ends (happens.trans ?_)
  rw [List.flatMap_cons, Link.occurrences_of_message found method same]
  exact congrArg (fun text => Occurrence.called console method text :: _)
    (Argument.join_string message)

namespace Session

/-- The step calls a fallback console with a message. -/
inductive Forwards (session : Session) (step : Step) (console : ConsoleRef) (message : String) :
    Prop where
  | intro {target : ConsoleTarget} {method : Method} {values : List HostValue}
      {arguments : List Argument} {slot : SlotRef} {config : Config}
      (calls : Calls step target method values)
      (converts : HostValue.toArguments values = .ok arguments)
      (joins : Argument.join arguments = message)
      (means : session.consoleOf target = .ok (some console))
      (found : session.world.consoles.row console = .fallback slot config)

/-- The scripts differ only at calls of fallback consoles. There they call the same
console with the same message. -/
inductive Alike : Session -> List Step -> List Step -> Prop where
  | done (session : Session) : Alike session [] []
  | same {session : Session} (step : Step) {script other : List Step}
      (rest : Alike (session.step step).1 script other) :
      Alike session (step :: script) (step :: other)
  | call {session : Session} {step replacement : Step} {console : ConsoleRef} {message : String}
      {script other : List Step} (calls : session.Forwards step console message)
      (also : session.Forwards replacement console message)
      (rest : Alike (session.step step).1 script other) :
      Alike session (step :: script) (replacement :: other)

/-- The outcomes cannot be told apart. After the call itself the same things happen. -/
structure Outcome.Matches (outcome other : Outcome) : Prop where
  reply : outcome.reply = other.reply
  trace : outcome.trace = other.trace
  consequences : outcome.occurrences.tail = other.occurrences.tail

theorem Outcome.Matches.refl (outcome : Outcome) : outcome.Matches outcome :=
  ⟨rfl, rfl, rfl⟩

variable {session : Session} {step replacement : Step} {console : ConsoleRef} {message : String}

/-- Two calls of a fallback console with one message do the same. -/
theorem Forwards.step_matches (calls : session.Forwards step console message)
    (also : session.Forwards replacement console message) :
    (session.step step).1 = (session.step replacement).1 ∧
      (session.step step).2.Matches (session.step replacement).2 := by
  obtain @⟨target, method, values, arguments, slot, config, calls, converts, joins, means, found⟩ :=
    calls
  obtain @⟨_, named, _, others, _, _, alsoCalls, alsoConverts, alsoJoins, alsoMeans, _⟩ := also
  obtain ⟨after, more, comes⟩ := World.call_of_message found message
  have first := step_of_calls calls converts means
  have second := step_of_calls alsoCalls alsoConverts alsoMeans
  rw [comes method arguments joins] at first
  rw [comes named others alsoJoins] at second
  rw [first, second]
  exact ⟨rfl, rfl, rfl, rfl⟩

/-- A call of a fallback console may as well be one by any other method, known or named,
with any arguments that have the message. -/
theorem Forwards.replaced (calls : session.Forwards step console message)
    {target : ConsoleTarget} (means : session.consoleOf target = .ok (some console))
    {values : List HostValue} {arguments : List Argument}
    (converts : HostValue.toArguments values = .ok arguments)
    (joins : Argument.join arguments = message) (method : Method) :
    session.Forwards (.invoke target method values) console message ∧
      session.Forwards (.call target method.name values) console message := by
  obtain ⟨-, -, -, -, found⟩ := calls
  exact ⟨.intro .direct converts joins means found,
    .intro (.named method.ofName_name) converts joins means found⟩

/-- Only the message matters to a fallback console. Scripts that differ only at calls of
fallback consoles, where they call the same console with the same message, give the same
replies and the same trace at every step and end in the same session: the method, its
way of being called, the target and the shape of the arguments are all free. In
particular every such call may be replaced by one with the text of the message. -/
theorem only_message_matters {session : Session} {script other : List Step}
    (alike : Alike session script other) :
    (session.run script).1 = (session.run other).1 ∧
      List.Forall₂ Outcome.Matches (session.run script).2 (session.run other).2 ∧
      ∀ before step console message, Forwards before step console message ->
        ∀ target, before.consoleOf target = .ok (some console) -> ∀ method,
          before.Forwards (.invoke target method [.text message]) console message ∧
            before.Forwards (.call target method.name [.text message]) console message := by
  refine (and_assoc.1 ⟨?_, fun before step console message calls target means method =>
    calls.replaced means rfl (Argument.join_string message) method⟩)
  induction alike with
  | done session => exact ⟨rfl, .nil⟩
  | @same session step script other rest ih =>
    obtain ⟨ends, outcomes⟩ := ih
    exact ⟨ends, .cons (.refl _) outcomes⟩
  | @call session step replacement console message script other calls also rest ih =>
    obtain ⟨ends, outcomes⟩ := ih
    obtain ⟨goes, shows⟩ := calls.step_matches also
    rw [goes] at ends outcomes
    simp only [run, goes]
    exact ⟨ends, .cons shows outcomes⟩

/-- The error log echoes the message into the console that reported it. A warning by name,
with two values, is replaced by a direct call of another method with the one text. -/
theorem only_message_matters_echoing :
    let setup : List Step := [.newLog "log" none, .newEnvironment "page",
      .install "page" (some "worker"),
      .newApplication "first" (.echoing "log" (.environment "page") 1),
      .setApplication "first" (.environment "page")]
    let warning : Step := .call (.environment "page") "warn" [.undefined, .integer 7]
    let plain : Step := .invoke (.console "shim:page") .debug [.text "undefined 7"]
    let session := (({} : Session).run setup).1
    let script := [warning, .entries "log"]
    let other := [plain, .entries "log"]
    (session.run script).1 = (session.run other).1 ∧
      List.Forall₂ Outcome.Matches (session.run script).2 (session.run other).2 ∧
      ((session.run script).1.world.logs.row ⟨0⟩).entries =
        [⟨"undefined 7", "worker"⟩, ⟨"echo undefined 7", "worker"⟩] := by
  intro setup warning plain session script other
  have named : session.consoleOf (.environment "page") = .ok (some ⟨0⟩) := by decide +kernel
  have direct : session.consoleOf (.console "shim:page") = .ok (some ⟨0⟩) := by decide +kernel
  have found : session.world.consoles.row ⟨0⟩ = .fallback ⟨0⟩ ⟨"worker"⟩ := rfl
  have calls : session.Forwards warning ⟨0⟩ "undefined 7" :=
    .intro (.named rfl) rfl (by decide +kernel) named found
  have also : session.Forwards plain ⟨0⟩ "undefined 7" :=
    .intro .direct rfl (by decide +kernel) direct found
  have alike : Alike session script other := .call calls also (.same (.entries "log") (.done _))
  obtain ⟨ends, outcomes, -⟩ := only_message_matters alike
  exact ⟨ends, outcomes, by decide +kernel⟩

end Session
end ScriptConsole
