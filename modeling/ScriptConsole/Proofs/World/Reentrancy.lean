import ScriptConsole.Proofs.World.Link
import ScriptConsole.Proofs.World.Reception

/-!
# Models that call consoles

A model may call a console from within its own delivery, and the call may come back to
the same model. Each such call is paid for with a unit of an echo, so the chain that a
call starts is exactly as long as what it spends: that is read off link by link, and
added up along the chain.
-/

namespace ScriptConsole

/-- A message that was passed on a number of times. -/
def echoed (times : Nat) (message : String) : String :=
  String.join (List.replicate times "echo ") ++ message

theorem echoed_zero (message : String) : echoed 0 message = message := by
  simp [echoed]

theorem echoed_succ (times : Nat) (message : String) :
    echoed (times + 1) message = echoed times ("echo " ++ message) := by
  simp [echoed, List.replicate_succ', String.join_append, String.append_assoc]

theorem join_echoArguments (message : String) :
    Argument.join (World.echoArguments message) = "echo " ++ message := by
  rw [← String.toList_inj]
  simp [Argument.join, World.echoArguments, Argument.text, Argument.separator,
    String.intercalate_cons_cons]

namespace Link

/-- The echo that a call spends a unit of. -/
def spent? (link : Link) : Option EchoRef :=
  link.delivery.bind fun (model, _) => link.world.spent? model

/-- A call delivers what it should, and nothing that happens at it besides is a
delivery. -/
theorem deliveries_occurrences (link : Link) :
    link.occurrences.filterMap Occurrence.delivery? = link.delivery.toList := by
  cases delivers : link.delivery with
  | none =>
    rw [occurrences_of_silence delivers]
    rfl
  | some delivery =>
    obtain ⟨model, report⟩ := delivery
    have nothing : (link.world.receive model report).occurrences.filterMap
        Occurrence.delivery? = [] := by
      rw [List.filterMap_eq_nil_iff]
      exact fun occurrence happens => (link.world.occurrences_receive model report happens).2
    rw [occurrences_of_delivery delivers, List.filterMap_cons, List.filterMap_cons]
    simp only [Occurrence.delivery?, nothing]
    rfl

theorem countP_isCall_occurrences (link : Link) :
    link.occurrences.countP Occurrence.isCall = 1 := by
  cases delivers : link.delivery with
  | none =>
    rw [occurrences_of_silence delivers]
    rfl
  | some delivery =>
    obtain ⟨model, report⟩ := delivery
    have nothing : (link.world.receive model report).occurrences.countP
        Occurrence.isCall = 0 := by
      rw [List.countP_eq_zero]
      intro occurrence happens
      rw [(link.world.occurrences_receive model report happens).1]
      exact Bool.false_ne_true
    rw [occurrences_of_delivery delivers, List.countP_cons, List.countP_cons, nothing]
    rfl

/-- Without a delivery no echo is spent. -/
theorem echoes_after_of_silence {link : Link} (silent : link.delivery = none) :
    link.after.echoes = link.world.echoes := by
  cases found : link.world.consoles.row link.console with
  | host capabilities calls => rw [after, reception_of_host found]
  | fallback slot config => rw [after, reception_of_silence found silent]

theorem isSome_next (link : Link) : link.next.isSome = link.spent?.isSome := by
  cases delivers : link.delivery with
  | none => simp [next_of_silence delivers, spent?, delivers]
  | some delivery =>
    obtain ⟨model, report⟩ := delivery
    rw [next_of_delivery delivers, Option.isSome_map, World.isSome_next_receive]
    simp [spent?, delivers]

theorem echo_after (link : Link) (echo : EchoRef) :
    link.after.echoes.row echo + (if link.spent? = some echo then 1 else 0) =
      link.world.echoes.row echo := by
  cases delivers : link.delivery with
  | none =>
    rw [echoes_after_of_silence delivers]
    simp [spent?, delivers]
  | some delivery =>
    obtain ⟨model, report⟩ := delivery
    have spends := link.world.echo_receive model report echo
    simp only [spent?, delivers, Option.bind_some, after, reception_of_delivery delivers]
    exact spends

theorem budget_after (link : Link) :
    link.after.budget + (if link.next.isSome then 1 else 0) = link.world.budget := by
  cases delivers : link.delivery with
  | none =>
    rw [next_of_silence delivers, World.budget, echoes_after_of_silence delivers]
    rfl
  | some delivery =>
    obtain ⟨model, report⟩ := delivery
    rw [next_of_delivery delivers, after, reception_of_delivery delivers, Option.isSome_map]
    exact link.world.budget_receive model report

/-- A call goes on exactly where its model echoes and has a unit left. -/
theorem next_eq_some_iff {link following : Link} :
    link.next = some following ↔
      ∃ log console echo report, link.delivery = some (.echoing log console echo, report) ∧
        0 < link.world.echoes.row echo ∧
        following = ⟨link.after, console, .info, [.string "echo", .string link.text]⟩ := by
  cases delivers : link.delivery with
  | none => simp [next_of_silence delivers]
  | some delivery =>
    obtain ⟨model, report⟩ := delivery
    rw [next_of_delivery delivers, Option.map_eq_some_iff, after, reception_of_delivery delivers]
    simp only [World.next_receive_eq_some_iff, Option.some.injEq, Prod.mk.injEq]
    constructor
    · rintro ⟨console, ⟨log, echo, rfl, left⟩, rfl⟩
      exact ⟨log, console, echo, report, ⟨rfl, rfl⟩, left, rfl⟩
    · rintro ⟨log, console, echo, _, ⟨rfl, rfl⟩, left, rfl⟩
      exact ⟨console, ⟨log, echo, rfl, left⟩, rfl⟩

/-- What one call does before any later one is made. -/
structure Settles (link : Link) : Prop where
  /-- A console of the host forwards nothing. -/
  host : ∀ capabilities calls, link.world.consoles.row link.console = .host capabilities calls ->
    link.occurrences.filterMap Occurrence.delivery? = []
  /-- A fallback console forwards its message once, to the error log that its slot leads
  to at this moment, if it leads to one. -/
  fallback : ∀ slot config, link.world.consoles.row link.console = .fallback slot config ->
    link.occurrences.filterMap Occurrence.delivery? =
      ((link.world.logModel slot).map fun model => (model, ⟨link.text, config.source⟩)).toList
  /-- The model has the message in its log, whatever else it does. -/
  records : ∀ model report log, link.delivery = some (model, report) -> model.log? = some log ->
    link.after.logs.row log = (link.world.logs.row log).record report
  /-- A model that rebinds a slot has done so for every later call. -/
  rebinds : ∀ log slot next report, link.delivery = some (.rebinding log slot next, report) ->
    link.after.application slot = next
  /-- A call follows exactly if the model echoes and has a unit left. It finds the world
  that this one leaves. -/
  follows : ∀ following, link.next = some following ↔
    ∃ log console echo report, link.delivery = some (.echoing log console echo, report) ∧
      0 < link.world.echoes.row echo ∧
      following = ⟨link.after, console, .info, [.string "echo", .string link.text]⟩

theorem settles (link : Link) : Settles link where
  host := by
    intro capabilities calls found
    rw [deliveries_occurrences, delivery_of_host found]
    rfl
  fallback := by
    intro slot config found
    rw [deliveries_occurrences, delivery_of_fallback found]
  records := by
    intro model report log delivers keeps
    rw [after, reception_of_delivery delivers]
    exact link.world.log_receive report keeps
  rebinds := by
    intro log slot next report delivers
    rw [after, reception_of_delivery delivers, World.application_receive_rebinding, if_pos rfl]
  follows := fun following => next_eq_some_iff

end Link

namespace Chain

variable {link : Link} {links : List Link} {final : World}

theorem head (chain : Chain link links final) : links[0]? = some link := by
  cases chain with
  | last ends => rfl
  | further goes rest => rfl

/-- Every call is followed by the call that is made in consequence, the last by none. -/
theorem follows (chain : Chain link links final) :
    ∀ (place : Nat) (there : Link), links[place]? = some there ->
      links[place + 1]? = there.next := by
  induction chain with
  | @last link ends =>
    intro place there found
    cases place with
    | zero =>
      cases found
      exact ends.symm
    | succ place => cases found
  | @further link following links final goes rest ih =>
    intro place there found
    cases place with
    | zero =>
      cases found
      exact rest.head.trans goes.symm
    | succ place => exact ih place there found

theorem after_getLast (chain : Chain link links final) :
    links.getLast?.map Link.after = some final := by
  induction chain with
  | @last link ends => rfl
  | @further link following links final goes rest ih =>
    cases links with
    | nil => cases rest
    | cons first others =>
      rw [List.getLast?_cons_cons]
      exact ih

/-- At every further call the message has one more word in front. -/
theorem text (chain : Chain link links final) :
    ∀ (place : Nat) (there : Link), links[place]? = some there ->
      there.text = echoed place link.text := by
  induction chain with
  | @last link ends =>
    intro place there found
    cases place with
    | zero =>
      cases found
      exact (echoed_zero _).symm
    | succ place => cases found
  | @further link following links final goes rest ih =>
    intro place there found
    cases place with
    | zero =>
      cases found
      exact (echoed_zero _).symm
    | succ place =>
      obtain ⟨log, console, echo, report, delivers, left, rfl⟩ := Link.next_eq_some_iff.1 goes
      rw [echoed_succ, ← join_echoArguments]
      exact ih place there found

/-- Every unit of an echo that is gone after the chain was spent at one of its calls. -/
theorem echo_spent (chain : Chain link links final) (echo : EchoRef) :
    final.echoes.row echo + links.countP (fun link => link.spent? = some echo) =
      link.world.echoes.row echo := by
  induction chain with
  | @last link ends =>
    have spends := link.echo_after echo
    simpa [List.countP_cons] using spends
  | @further link following links final goes rest ih =>
    have spends := link.echo_after echo
    obtain ⟨_, _, _, _, _, _, rfl⟩ := Link.next_eq_some_iff.1 goes
    simp only [List.countP_cons, decide_eq_true_eq] at spends ih ⊢
    omega

/-- All calls but the last spend a unit. -/
theorem length_eq (chain : Chain link links final) :
    links.length = 1 + links.countP fun link => link.spent?.isSome := by
  induction chain with
  | @last link ends =>
    have none : link.spent?.isSome = false := by
      rw [← link.isSome_next, ends]
      rfl
    simp [none]
  | @further link following links final goes rest ih =>
    have some : link.spent?.isSome = true := by
      rw [← link.isSome_next, goes]
      rfl
    simp only [List.length_cons, List.countP_cons, some, if_true]
    omega

/-- The length of a chain and what it leaves of the budget make up one more than the
budget it finds. -/
theorem length_add_budget (chain : Chain link links final) :
    links.length + final.budget = 1 + link.world.budget := by
  induction chain with
  | @last link ends =>
    have pays := link.budget_after
    simp only [ends, Option.isSome_none, Bool.false_eq_true, if_false] at pays
    simp only [List.length_cons, List.length_nil]
    omega
  | @further link following links final goes rest ih =>
    have pays := link.budget_after
    simp only [goes, Option.isSome_some, if_true] at pays
    obtain ⟨_, _, _, _, _, _, rfl⟩ := Link.next_eq_some_iff.1 goes
    simp only [List.length_cons] at ih ⊢
    omega

end Chain

namespace World

theorem countP_isCall_flatMap (links : List Link) :
    (links.flatMap Link.occurrences).countP Occurrence.isCall = links.length := by
  induction links with
  | nil => rfl
  | cons link links ih =>
    rw [List.flatMap_cons, List.countP_append, ih, link.countP_isCall_occurrences,
      List.length_cons, Nat.add_comm]

/-- A call ends, however the models are wired. The calls that it leads to come one after
the other, each in the world that the one before left, with one more word in front of the
message; each forwards its message to one error log at most, the one it finds, which has
it before anything deeper is called. There are as many calls as units of echoes are
spent, and one more. -/
theorem call_ends_in_chain (world : World) (console : ConsoleRef) (method : Method)
    (arguments : List Argument) :
    let (final, occurrences) := world.call console method arguments
    ∃ links : List Link,
      links[0]? = some ⟨world, console, method, arguments⟩ ∧
      (∀ (place : Nat) (link : Link), links[place]? = some link ->
        links[place + 1]? = link.next ∧ link.text = echoed place (Argument.join arguments) ∧
          link.Settles) ∧
      links.getLast?.map Link.after = some final ∧
      occurrences = links.flatMap Link.occurrences ∧
      occurrences.countP Occurrence.isCall = links.length ∧
      (∀ echo, final.echoes.row echo + links.countP (fun link => link.spent? = some echo) =
        world.echoes.row echo) ∧
      links.length = 1 + links.countP (fun link => link.spent?.isSome) ∧
      links.length + final.budget = 1 + world.budget := by
  obtain ⟨links, chain, happened⟩ := world.call_follows_chain console method arguments
  refine ⟨links, chain.head, fun place link found => ?_, chain.after_getLast, happened, ?_,
    chain.echo_spent, chain.length_eq, chain.length_add_budget⟩
  · exact ⟨chain.follows place link found, chain.text place link found, link.settles⟩
  · rw [happened, countP_isCall_flatMap]

/-- The console of a model leads back to the model itself, which passes two reports on. -/
theorem call_ends_in_chain_back_to_itself :
    let world : World :=
      { slots := ⟨[some ⟨0⟩]⟩, logs := ⟨[{}]⟩, echoes := ⟨[2]⟩
        applications := ⟨[{ logs := some (.echoing ⟨0⟩ ⟨0⟩ ⟨0⟩) }]⟩
        consoles := ⟨[.fallback ⟨0⟩ .default]⟩ }
    let (final, occurrences) := world.call ⟨0⟩ .warn [.string "lost"]
    (∃ links : List Link, occurrences = links.flatMap Link.occurrences ∧
      occurrences.countP Occurrence.isCall = links.length ∧
      (∀ link, links[2]? = some link -> link.text = "echo echo lost") ∧
      links.length + final.budget = 1 + world.budget) ∧
    occurrences.countP Occurrence.isCall = 3 ∧
    (final.logs.row ⟨0⟩).entries.map Report.message = ["lost", "echo lost", "echo echo lost"] := by
  intro world
  obtain ⟨links, _, each, _, happened, counted, _, _, spent⟩ :=
    world.call_ends_in_chain ⟨0⟩ .warn [.string "lost"]
  refine ⟨⟨links, happened, counted, fun link found => ?_, spent⟩, by decide +kernel,
    by decide +kernel⟩
  exact (each 2 link found).2.1

end World

end ScriptConsole
