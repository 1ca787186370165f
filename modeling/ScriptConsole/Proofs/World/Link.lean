import ScriptConsole.World.Call

/-!
# Chains of console calls

A console call and the calls made in consequence are the links of a chain. A link
knows the world that it finds, so what it delivers can be said without running
anything after it: the application is looked up in that world. `Chain` strings the
links together, and `call_follows_chain` says that `World.call` is its chain.
-/

namespace ScriptConsole

/-- One console call: the world it finds, and what is called with which arguments. -/
structure Link where
  world : World
  console : ConsoleRef
  method : Method
  arguments : List Argument

namespace Link

/-- The message of the call. -/
def text (link : Link) : String :=
  Argument.join link.arguments

/-- What the call reports, and the error log that gets it: that of the application
which is in the console's slot at this moment. -/
def delivery (link : Link) : Option (LogModel × Report) :=
  match link.world.consoles.row link.console with
  | .host _ _ => none
  | .fallback slot config =>
    (link.world.logModel slot).map fun model => (model, ⟨link.text, config.source⟩)

/-- What the call leaves behind before any other call is made. -/
def reception (link : Link) : Reception :=
  match link.world.consoles.row link.console, link.delivery with
  | .host capabilities calls, _ =>
    let calls := calls ++ [capabilities.operations.call link.method link.arguments]
    ⟨{ link.world with
        consoles := link.world.consoles.put link.console (.host capabilities calls) }, [], none⟩
  | .fallback _ _, none => ⟨link.world, [], none⟩
  | .fallback _ _, some (model, report) => link.world.receive model report

/-- The world after the call, as any call made in consequence finds it. -/
def after (link : Link) : World :=
  link.reception.world

/-- The call that is made in consequence, if one is made. -/
def next (link : Link) : Option Link :=
  link.reception.next.map fun console =>
    ⟨link.after, console, .info, World.echoArguments link.text⟩

/-- What happens at this call: it arrives, its report is delivered, and the model
does what it does by itself. -/
def occurrences (link : Link) : List Occurrence :=
  .called link.console link.method link.text ::
    ((link.delivery.map fun (model, report) => .delivered model report).toList ++
      link.reception.occurrences)

theorem delivery_of_host {link : Link} {capabilities : Capabilities}
    {calls : List (Method × List Argument)}
    (found : link.world.consoles.row link.console = .host capabilities calls) :
    link.delivery = none := by
  simp only [delivery, found]

theorem delivery_of_fallback {link : Link} {slot : SlotRef} {config : Config}
    (found : link.world.consoles.row link.console = .fallback slot config) :
    link.delivery =
      (link.world.logModel slot).map fun model => (model, ⟨link.text, config.source⟩) := by
  simp only [delivery, found]

/-- A report has the text of its call as its message. -/
theorem message_of_delivery {link : Link} {model : LogModel} {report : Report}
    (delivers : link.delivery = some (model, report)) : report.message = link.text := by
  cases found : link.world.consoles.row link.console with
  | host capabilities calls =>
    rw [delivery_of_host found] at delivers
    cases delivers
  | fallback slot config =>
    rw [delivery_of_fallback found] at delivers
    obtain ⟨resolved, -, same⟩ := Option.map_eq_some_iff.1 delivers
    cases same
    rfl

theorem reception_of_host {link : Link} {capabilities : Capabilities}
    {calls : List (Method × List Argument)}
    (found : link.world.consoles.row link.console = .host capabilities calls) :
    link.reception =
      ⟨{ link.world with
          consoles := link.world.consoles.put link.console
            (.host capabilities
              (calls ++ [capabilities.operations.call link.method link.arguments])) },
        [], none⟩ := by
  simp only [reception, found]

/-- Where nothing is delivered to, a fallback console leaves the world as it is. -/
theorem reception_of_silence {link : Link} {slot : SlotRef} {config : Config}
    (found : link.world.consoles.row link.console = .fallback slot config)
    (silent : link.delivery = none) : link.reception = ⟨link.world, [], none⟩ := by
  simp only [reception, found, silent]

theorem reception_of_delivery {link : Link} {model : LogModel} {report : Report}
    (delivers : link.delivery = some (model, report)) :
    link.reception = link.world.receive model report := by
  cases found : link.world.consoles.row link.console with
  | host capabilities calls =>
    rw [delivery_of_host found] at delivers
    cases delivers
  | fallback slot config => simp only [reception, found, delivers]

/-- Without a delivery nothing happens in consequence. -/
theorem next_of_silence {link : Link} (silent : link.delivery = none) : link.next = none := by
  cases found : link.world.consoles.row link.console with
  | host capabilities calls => simp only [next, reception_of_host found, Option.map_none]
  | fallback slot config =>
    simp only [next, reception_of_silence found silent, Option.map_none]

theorem next_of_delivery {link : Link} {model : LogModel} {report : Report}
    (delivers : link.delivery = some (model, report)) :
    link.next = (link.world.receive model report).next.map fun console =>
      ⟨(link.world.receive model report).world, console, .info,
        World.echoArguments link.text⟩ := by
  simp only [next, after, reception_of_delivery delivers]

theorem occurrences_of_delivery {link : Link} {model : LogModel} {report : Report}
    (delivers : link.delivery = some (model, report)) :
    link.occurrences = .called link.console link.method link.text :: .delivered model report ::
      (link.world.receive model report).occurrences := by
  simp [occurrences, delivers, reception_of_delivery delivers]

theorem occurrences_of_silence {link : Link} (silent : link.delivery = none) :
    link.occurrences = [.called link.console link.method link.text] := by
  cases found : link.world.consoles.row link.console with
  | host capabilities calls => simp [occurrences, silent, reception_of_host found]
  | fallback slot config => simp [occurrences, silent, reception_of_silence found silent]

/-- A call is over when it arrives exactly if it delivers nothing. -/
theorem arrive_eq (link : Link) :
    link.world.arrive link.console link.method link.arguments =
      match link.delivery with
      | none => .settled link.after
      | some (model, report) => .reporting model report := by
  cases found : link.world.consoles.row link.console with
  | host capabilities calls =>
    rw [delivery_of_host found, after, reception_of_host found]
    simp only [World.arrive, found]
  | fallback slot config =>
    cases resolved : link.world.logModel slot with
    | none =>
      have silent : link.delivery = none := by rw [delivery_of_fallback found, resolved]; rfl
      rw [silent, after, reception_of_silence found silent]
      simp only [World.arrive, found, resolved]
    | some model =>
      rw [delivery_of_fallback found, resolved]
      simp only [World.arrive, found, resolved, call_reporting]
      rfl

theorem silent_of_settled {link : Link} {after : World}
    (arrives : link.world.arrive link.console link.method link.arguments = .settled after) :
    link.delivery = none ∧ link.after = after := by
  rw [arrive_eq] at arrives
  cases delivers : link.delivery with
  | none =>
    rw [delivers] at arrives
    cases arrives
    exact ⟨rfl, rfl⟩
  | some delivery =>
    rw [delivers] at arrives
    cases arrives

theorem delivery_of_reporting {link : Link} {model : LogModel} {report : Report}
    (arrives : link.world.arrive link.console link.method link.arguments =
      .reporting model report) : link.delivery = some (model, report) := by
  rw [arrive_eq] at arrives
  cases delivers : link.delivery with
  | none =>
    rw [delivers] at arrives
    cases arrives
  | some delivery =>
    rw [delivers] at arrives
    cases arrives
    rfl

end Link

/-- The calls that a call leads to, itself first, and the world after the last. -/
inductive Chain : Link -> List Link -> World -> Prop where
  | last {link : Link} (ends : link.next = none) : Chain link [link] link.after
  | further {link following : Link} {links : List Link} {final : World}
      (goes : link.next = some following) (rest : Chain following links final) :
      Chain link (link :: links) final

/-- A call without consequence is a chain of one link. -/
theorem Chain.single {link : Link} {world : World} (ends : link.next = none)
    (after : link.after = world) : Chain link [link] world :=
  after ▸ .last ends

/-- A call leads to one chain only. -/
theorem Chain.unique {link : Link} {links others : List Link} {final other : World}
    (chain : Chain link links final) (second : Chain link others other) :
    links = others ∧ final = other := by
  induction chain generalizing others with
  | @last link ends =>
    cases second with
    | last => exact ⟨rfl, rfl⟩
    | further goes =>
      rw [ends] at goes
      cases goes
  | @further link following links final goes rest ih =>
    cases second with
    | last ends =>
      rw [ends] at goes
      cases goes
    | further again remaining =>
      rw [goes] at again
      cases again
      obtain ⟨rfl, rfl⟩ := ih remaining
      exact ⟨rfl, rfl⟩

/-- A console call is its chain: it ends, nothing happens besides what happens at
the links, and the world that it leaves is that of the last link. -/
theorem World.call_follows_chain (world : World) (console : ConsoleRef) (method : Method)
    (arguments : List Argument) :
    ∃ links, Chain ⟨world, console, method, arguments⟩ links
        (world.call console method arguments).1 ∧
      (world.call console method arguments).2 = links.flatMap Link.occurrences := by
  fun_induction World.call world console method arguments with
  | case1 world console method arguments called after arrives =>
    let first : Link := ⟨world, console, method, arguments⟩
    obtain ⟨silent, rfl⟩ : first.delivery = none ∧ first.after = after :=
      Link.silent_of_settled arrives
    refine ⟨[first], .last (Link.next_of_silence silent), ?_⟩
    rw [List.flatMap_singleton, Link.occurrences_of_silence silent]
    rfl
  | case2 world console method arguments called model report arrives reception occurrences ends =>
    let first : Link := ⟨world, console, method, arguments⟩
    have delivers : first.delivery = some (model, report) := Link.delivery_of_reporting arrives
    have received := Link.reception_of_delivery delivers
    refine ⟨[first], .single ?_ (congrArg Reception.world received), ?_⟩
    · have silent : (first.world.receive model report).next = none := ends
      rw [Link.next_of_delivery delivers, silent]
      rfl
    · rw [List.flatMap_singleton, Link.occurrences_of_delivery delivers]
      rfl
  | case3 world console method arguments called model report arrives reception occurrences
      following goes final more result ih =>
    obtain ⟨links, chain, happened⟩ := ih
    rw [result] at chain happened
    let first : Link := ⟨world, console, method, arguments⟩
    have delivers : first.delivery = some (model, report) := Link.delivery_of_reporting arrives
    refine ⟨first :: links, .further ?_ chain, ?_⟩
    · rw [Link.next_of_delivery delivers,
        show (first.world.receive model report).next = some following from goes,
        Link.message_of_delivery delivers]
      rfl
    · rw [List.flatMap_cons, ← happened, Link.occurrences_of_delivery delivers]
      rfl

end ScriptConsole
