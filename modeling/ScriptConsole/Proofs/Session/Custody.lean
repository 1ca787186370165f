import Mathlib.Data.List.Induction
import ScriptConsole.Proofs.Session.Moment

/-!
# Custody of applications

Whoever writes to a slot is handed back what was in it. So at every moment of a run, and
for every slot and application, what was put into the slot is what was handed back from it
and what is still there: no application is lost, and none is handed back twice. The
balance is shown of chronicles that hand everything back, and every run's chronicle does.
-/

namespace ScriptConsole

open Session (Entry Step)

namespace Chronicle

/-- The entry puts the application into the slot. -/
def puts (slot : SlotRef) (application : ApplicationRef) : Entry -> Bool
  | .happened (.bound other placed _) => other = slot ∧ placed = application
  | _ => false

/-- The entry hands the application back from the slot. -/
def handsBack (slot : SlotRef) (application : ApplicationRef) : Entry -> Bool
  | .happened (.bound other _ previous) => other = slot ∧ previous = some application
  | .happened (.unbound other previous) => other = slot ∧ previous = some application
  | _ => false

/-- The entry binds something to the slot or clears it. -/
def writes (slot : SlotRef) : Entry -> Bool
  | .happened (.bound other _ _) => other = slot
  | .happened (.unbound other _) => other = slot
  | _ => false

/-- If the entry writes to a slot, it hands back what is there after the earlier ones. -/
def Returns (earlier : List Entry) : Entry -> Prop
  | .happened (.bound slot _ previous) => previous = application slot earlier
  | .happened (.unbound slot previous) => previous = application slot earlier
  | _ => True

/-- Each of the entries hands back what is in its slot by then. -/
def AllReturn (earlier : List Entry) : List Entry -> Prop
  | [] => True
  | entry :: later => Returns earlier entry ∧ AllReturn (earlier ++ [entry]) later

theorem allReturn_append {earlier first second : List Entry} :
    AllReturn earlier (first ++ second) ↔
      AllReturn earlier first ∧ AllReturn (earlier ++ first) second := by
  induction first generalizing earlier with
  | nil => simp [AllReturn]
  | cons entry first ih => simp [AllReturn, ih, and_assoc]

/-- What the entries put into a slot, with what was there before, is what they hand back
from it, with what is there afterwards. -/
def Conserves (earlier later : List Entry) : Prop :=
  ∀ slot application,
    later.countP (puts slot application) +
        (if Chronicle.application slot earlier = some application then 1 else 0) =
      later.countP (handsBack slot application) +
        if Chronicle.application slot (earlier ++ later) = some application then 1 else 0

theorem conserves_singleton {earlier : List Entry} {entry : Entry}
    (returns : Returns earlier entry) : Conserves earlier [entry] := by
  intro slot application
  rw [application_append]
  cases entry with
  | reported log report => rfl
  | cleared log => rfl
  | happened occurrence =>
    cases occurrence with
    | bound other placed previous =>
      cases returns
      by_cases same : other = slot
      · subst same
        simp [puts, handsBack, rebind, Nat.add_comm]
      · simp [puts, handsBack, rebind, same]
    | unbound other previous =>
      cases returns
      by_cases same : other = slot
      · subst same
        simp [puts, handsBack, rebind]
      · simp [puts, handsBack, rebind, same]
    | _ => rfl

theorem Conserves.trans {earlier first second : List Entry} (before : Conserves earlier first)
    (after : Conserves (earlier ++ first) second) : Conserves earlier (first ++ second) := by
  intro slot application
  have early := before slot application
  have late := after slot application
  rw [List.append_assoc] at late
  simp only [List.countP_append]
  omega

theorem conserves_of_allReturn {earlier later : List Entry} (returns : AllReturn earlier later) :
    Conserves earlier later := by
  induction later generalizing earlier with
  | nil =>
    intro slot application
    simp
  | cons entry later ih => exact (conserves_singleton returns.1).trans (ih returns.2)

theorem rebind_of_not_writes {slot : SlotRef} {entry : Entry} (spares : writes slot entry = false)
    (current : Option ApplicationRef) : rebind slot current entry = current := by
  cases entry with
  | reported log report => rfl
  | cleared log => rfl
  | happened occurrence =>
    cases occurrence with
    | bound other placed previous => exact if_neg (of_decide_eq_false spares)
    | unbound other previous => exact if_neg (of_decide_eq_false spares)
    | _ => rfl

theorem foldl_rebind_of_not_writes {slot : SlotRef} {later : List Entry}
    (spares : ∀ entry ∈ later, writes slot entry = false) (current : Option ApplicationRef) :
    later.foldl (rebind slot) current = current := by
  induction later with
  | nil => rfl
  | cons entry later ih =>
    rw [List.foldl_cons, rebind_of_not_writes (spares entry List.mem_cons_self)]
    exact ih fun other there => spares other (List.mem_cons_of_mem _ there)

/-- An entry that leaves an application in a slot has put it there, or has found it there
and does not write to the slot. -/
theorem rebind_eq_some_iff {slot : SlotRef} {current : Option ApplicationRef} {entry : Entry}
    {placed : ApplicationRef} :
    rebind slot current entry = some placed ↔
      (∃ previous, entry = .happened (.bound slot placed previous)) ∨
        writes slot entry = false ∧ current = some placed := by
  cases entry with
  | reported log report => simp [rebind, writes]
  | cleared log => simp [rebind, writes]
  | happened occurrence =>
    cases occurrence with
    | bound other ref previous => by_cases same : other = slot <;> simp [rebind, writes, same]
    | unbound other previous => by_cases same : other = slot <;> simp [rebind, writes, same]
    | _ => simp [rebind, writes]

/-- What is in a slot was put there last, and nothing was written to the slot since. -/
theorem application_eq_some_iff {slot : SlotRef} {placed : ApplicationRef} {told : List Entry} :
    application slot told = some placed ↔
      ∃ earlier previous later,
        told = earlier ++ .happened (.bound slot placed previous) :: later ∧
          ∀ entry ∈ later, writes slot entry = false := by
  constructor
  · intro there
    induction told using List.reverseRecOn with
    | nil => cases there
    | append_singleton told entry ih =>
      rw [application_append, List.foldl_cons, List.foldl_nil, rebind_eq_some_iff] at there
      obtain ⟨previous, rfl⟩ | ⟨spares, before⟩ := there
      · exact ⟨told, previous, [], rfl, fun _ none => nomatch none⟩
      · obtain ⟨earlier, previous, later, rfl, quiet⟩ := ih before
        refine ⟨earlier, previous, later ++ [entry], by simp, fun other there => ?_⟩
        obtain old | new := List.mem_append.1 there
        · exact quiet other old
        · rw [List.mem_singleton.1 new]
          exact spares
  · rintro ⟨earlier, previous, later, rfl, quiet⟩
    rw [application_append, List.foldl_cons, foldl_rebind_of_not_writes quiet]
    exact if_pos rfl

end Chronicle

open Chronicle

/-- What a model binds or clears by itself is handed back by what it puts down. -/
theorem World.returns_receive (world : World) (model : LogModel) (report : Report)
    {earlier : List Entry}
    (tells : ∀ slot, world.application slot = Chronicle.application slot earlier) :
    AllReturn earlier ((world.receive model report).occurrences.map Entry.happened) := by
  cases model with
  | memory log => trivial
  | tracing => trivial
  | rebinding log slot next =>
    cases next with
    | none => exact ⟨tells slot, trivial⟩
    | some next => exact ⟨tells slot, trivial⟩
  | echoing log console echo =>
    simp only [receive]
    split
    · trivial
    · trivial

theorem Link.returns {link : Link} {earlier : List Entry}
    (tells : ∀ slot, link.world.application slot = application slot earlier) :
    AllReturn earlier link.entries := by
  cases delivers : link.delivery with
  | none =>
    rw [entries_of_silence delivers]
    exact ⟨trivial, trivial⟩
  | some delivery =>
    obtain ⟨model, report⟩ := delivery
    rw [entries_of_delivery delivers]
    -- neither the call nor the delivery writes to a slot
    refine ⟨trivial, trivial, link.world.returns_receive model report fun slot => ?_⟩
    rw [tells, application_append, application_append]
    rfl

theorem Chain.returns {link : Link} {links : List Link} {final : World}
    (chain : Chain link links final) (closed : link.world.Closed) {earlier : List Entry}
    (tells : ∀ slot, link.world.application slot = application slot earlier) :
    AllReturn earlier (links.flatMap Link.entries) := by
  induction chain generalizing earlier with
  | @last link ends =>
    rw [List.flatMap_singleton]
    exact Link.returns tells
  | @further link following links final goes rest ih =>
    have found := Link.world_of_next goes
    have accounts := Link.accounts closed
    rw [List.flatMap_cons, allReturn_append]
    refine ⟨Link.returns tells, ih (found ▸ Link.closed_after closed) fun slot => ?_⟩
    rw [found, accounts.slot, tells, application_append]

namespace Session

variable {session : Session}

theorem returns_deeds (session : Session) (step : Step) (earlier : List Entry) :
    AllReturn earlier (session.deeds step) := by
  unfold deeds
  split
  · split <;> repeat constructor
  · split <;> repeat constructor
  · trivial

/-- What is installed on other threads writes to no slot. -/
theorem allReturn_race (environment : EnvironmentRef) (outcomes : List Installation)
    (earlier : List Entry) :
    AllReturn earlier
      ((outcomes.map (Occurrence.offeredElsewhere environment)).map Entry.happened) := by
  induction outcomes generalizing earlier with
  | nil => trivial
  | cons outcome outcomes ih => exact ⟨trivial, ih _⟩

theorem Move.returns {step : Step} {next : Advance} (move : Move session step next)
    (closed : session.Closed) {earlier : List Entry}
    (tells : ∀ slot, session.world.application slot = application slot earlier) :
    AllReturn earlier (next.occurrences.map Entry.happened) := by
  cases move with
  | setApplication => exact ⟨tells _, trivial⟩
  | clearApplication => exact ⟨tells _, trivial⟩
  | install | installExisting | logError => exact ⟨trivial, trivial⟩
  | raceInstall | raceExisting => exact allReturn_race _ _ _
  | @call step target method values arguments console calls converts means =>
    obtain ⟨links, chain, happened⟩ := session.world.call_follows_chain console method arguments
    simp only [happened, List.map_flatMap]
    exact chain.returns closed.world tells
  | _ => trivial

/-- What the host does to logs itself leaves every slot as it is. -/
theorem application_append_deeds (session : Session) (step : Step) (slot : SlotRef)
    (earlier : List Entry) :
    application slot (earlier ++ session.deeds step) = application slot earlier := by
  rw [application_append]
  unfold deeds
  split
  · split <;> rfl
  · split <;> rfl
  · rfl

theorem step_returns (closed : session.Closed) (step : Step) {earlier : List Entry}
    (tells : ∀ slot, session.world.application slot = application slot earlier) :
    AllReturn earlier (session.entries step) := by
  rw [entries, allReturn_append]
  refine ⟨session.returns_deeds step earlier, ?_⟩
  obtain ⟨next, move, done⟩ | ⟨failure, done⟩ := session.step_cases step
  · rw [done]
    exact move.returns closed fun slot => by rw [tells, application_append_deeds]
  · rw [done]
    trivial

/-- Whoever writes to a slot in a run is handed back what is in it by then. -/
theorem run_returns (closed : session.Closed) (steps : List Step) {earlier : List Entry}
    (tells : ∀ slot, session.world.application slot = application slot earlier) :
    AllReturn earlier (session.chronicle steps) := by
  induction steps generalizing session earlier with
  | nil => trivial
  | cons step steps ih =>
    obtain ⟨-, accounts⟩ := step_forwards closed step (.refl _) tells
    rw [chronicle, allReturn_append]
    exact ⟨step_returns closed step tells, ih (step_closed closed step)
      fun slot => by rw [accounts.slot, tells, application_append]⟩

/-- A step writes to the slots that it puts down, and to no others. -/
theorem application_step_of_not_writes (closed : session.Closed) {told : List Entry}
    (tells : ∀ slot, session.world.application slot = application slot told) {slot : SlotRef}
    {step : Step} (spares : ∀ entry ∈ session.entries step, writes slot entry = false) :
    (session.step step).1.world.application slot = session.world.application slot := by
  obtain ⟨-, accounts⟩ := step_forwards closed step (.refl _) tells
  rw [accounts.slot, foldl_rebind_of_not_writes spares]

/-- What is done with a slot through one of its handles, at this moment. -/
structure SlotOperations (session : Session) (target : SlotTarget) (slot : SlotRef) : Prop where
  /-- Looking tells what is in the slot, and changes nothing. -/
  get : ∃ answer, session.step (.application target) = (session, ⟨.ok (.name answer), []⟩) ∧
    session.applications.Identifies answer (session.world.application slot)
  hasLogModel : session.step (.hasLogModel target) =
    (session, ⟨.ok (.truth (session.world.logModel slot).isSome), []⟩)
  /-- Setting answers what looking would have told, and that is what is handed back. -/
  set : ∀ name application, session.applications.find name = .ok application ->
    let after := session.step (.setApplication name target)
    after.2.reply = (session.step (.application target)).2.reply ∧
      (∃ answer previous,
        after.2 = ⟨.ok (.name answer), [.bound slot application previous]⟩ ∧
          session.applications.Identifies answer previous ∧
          previous = session.world.application slot) ∧
      after.1.world.application slot = some application ∧
      ∀ other ≠ slot, after.1.world.application other = session.world.application other
  /-- So does clearing. -/
  clear : let after := session.step (.clearApplication target)
    after.2.reply = (session.step (.application target)).2.reply ∧
      (∃ answer previous,
        after.2 = ⟨.ok (.name answer), [.unbound slot previous]⟩ ∧
          session.applications.Identifies answer previous ∧
          previous = session.world.application slot) ∧
      after.1.world.application slot = none ∧
      ∀ other ≠ slot, after.1.world.application other = session.world.application other

theorem slotOperations (named : session.Named) (closed : session.Closed) {target : SlotTarget}
    {slot : SlotRef} (means : session.slotOf target = .ok slot) :
    SlotOperations session target slot where
  get := by
    refine ⟨_, ?_, named.identifies_application closed slot⟩
    simp only [Session.step, advance, means, bind_ok, pure_eq_ok]
  hasLogModel := by simp [Session.step, advance, means]
  set := by
    intro name application found
    have identifies := named.identifies_application closed slot
    simp only [Session.step, advance, means, found, bind_ok, pure_eq_ok]
    refine ⟨trivial, ⟨_, _, rfl, identifies, rfl⟩, Table.row_put_same _ _ _, ?_⟩
    exact fun other distinct => Table.row_put_of_ne _ distinct _
  clear := by
    have identifies := named.identifies_application closed slot
    simp only [Session.step, advance, means, bind_ok, pure_eq_ok]
    refine ⟨trivial, ⟨_, _, rfl, identifies, rfl⟩, Table.row_put_same _ _ _, ?_⟩
    exact fun other distinct => Table.row_put_of_ne _ distinct _

/-- What the slots of a world hold, by what is put down. -/
structure Custody (world : World) (told : List Entry) : Prop where
  /-- What was put into a slot was handed back from it or is in it. -/
  balance : ∀ slot application,
    told.countP (puts slot application) = told.countP (handsBack slot application) +
      if world.application slot = some application then 1 else 0
  last : ∀ slot application, world.application slot = some application ↔
    ∃ earlier previous later,
      told = earlier ++ .happened (.bound slot application previous) :: later ∧
        ∀ entry ∈ later, writes slot entry = false
  logModel : ∀ slot model, world.logModel slot = some model ↔
    ∃ application, world.application slot = some application ∧
      (world.applications.row application).logs = some model

theorem custody {world : World} {told : List Entry}
    (tells : ∀ slot, world.application slot = application slot told)
    (conserves : Conserves [] told) : Custody world told where
  balance := by
    intro slot application
    rw [tells]
    exact conserves slot application
  last := by
    intro slot application
    rw [tells]
    exact application_eq_some_iff
  logModel := fun slot model => Option.bind_eq_some_iff

/-- Slots keep applications in custody. At every moment of a run, within calls too, what
was put into a slot was either handed back from it or is what is in it; a slot's
application is what was bound last, unless the slot was cleared since, and its error log
is that of the slot. Whoever sets or clears a slot, and through whichever handle, is
handed back what was there just before: it is told by a name, and so is whoever looks. No
slot is changed but the one that is written to. -/
theorem slots_conserve_applications (steps : List Step) :
    let session := (({} : Session).run steps).1
    let told := ({} : Session).chronicle steps
    (∀ world earlier, Moment {} steps world earlier -> earlier <+: told ∧ Custody world earlier) ∧
      Moment {} steps session.world told ∧
      (∀ earlier, earlier <+: told -> Conserves [] earlier) ∧
      (∀ earlier entry later, told = earlier ++ entry :: later -> Returns earlier entry) ∧
      (∀ target slot, session.slotOf target = .ok slot -> SlotOperations session target slot) ∧
      (∀ slot step, (∀ entry ∈ session.entries step, writes slot entry = false) ->
        (session.step step).1.world.application slot = session.world.application slot) ∧
      Aliases session := by
  intro session told
  have start : ∀ slot, ({} : Session).world.application slot = application slot [] := fun _ => rfl
  have closed : session.Closed := run_closed closed_empty steps
  have named : session.Named := run_named named_empty steps
  have finish := moment_end {} steps
  have returns : AllReturn [] told := run_returns closed_empty steps start
  have conserves : ∀ earlier, earlier <+: told -> Conserves [] earlier := by
    rintro earlier ⟨later, split⟩
    rw [← split, allReturn_append] at returns
    exact conserves_of_allReturn returns.1
  refine ⟨fun world earlier moment => ?_, finish, conserves, fun earlier entry later split => ?_,
    fun target slot means => slotOperations named closed means, fun slot step spares => ?_,
    aliases closed named⟩
  · exact ⟨moment.told_prefix,
      custody moment.told_of_empty.1 (conserves earlier moment.told_prefix)⟩
  · rw [split, allReturn_append] at returns
    exact returns.2.1
  · exact application_step_of_not_writes closed finish.told_of_empty.1 spares

/-- The first application's error log binds the second one during a call, the second one
is bound once more through another handle, and then the slot is cleared: all three are
handed back, each in its turn, and told by their names. The first one, bound again, is what
is left, and what looking, setting and clearing tell. -/
theorem slots_conserve_applications_reentrant :
    let steps : List Step := [.newLog "log" none, .newSlot "slot",
      .shareSlot "other" (.slot "slot"),
      .newApplication "second" (.memory "log"),
      .newApplication "first" (.rebinding "log" (.slot "other") (some "second")),
      .newFallback "console" (.slot "slot") none, .setApplication "first" (.slot "slot"),
      .invoke (.console "console") .warn [.text "late"], .setApplication "second" (.slot "other"),
      .clearApplication (.slot "slot"), .setApplication "first" (.slot "other")]
    let (session, outcomes) := ({} : Session).run steps
    let told := ({} : Session).chronicle steps
    told.countP (puts ⟨0⟩ ⟨0⟩) = 2 ∧ told.countP (handsBack ⟨0⟩ ⟨0⟩) = 2 ∧
      told.countP (puts ⟨0⟩ ⟨1⟩) = 2 ∧ told.countP (handsBack ⟨0⟩ ⟨1⟩) = 1 ∧
      (outcomes.drop 6).map Outcome.reply = [.ok (.name none), .ok .nothing,
        .ok (.name (some "second")), .ok (.name (some "second")), .ok (.name none)] ∧
      Custody session.world told ∧ session.world.application ⟨0⟩ = some ⟨1⟩ ∧
      Returns (told.take 3) (.happened (.bound ⟨0⟩ ⟨0⟩ (some ⟨1⟩))) ∧
      SlotOperations session (.slot "other") ⟨0⟩ ∧
      (session.step (.application (.slot "slot"))).2.reply = .ok (.name (some "first")) ∧
      (session.step (.setApplication "second" (.slot "other"))).2.reply =
        .ok (.name (some "first")) ∧
      (session.step (.clearApplication (.slot "slot"))).2.reply = .ok (.name (some "first")) ∧
      session.applications.find "first" = .ok ⟨1⟩ ∧
      (session.step (.newSlot "next")).1.world.application ⟨0⟩ = some ⟨1⟩ := by
  intro steps
  obtain ⟨moments, finish, -, returns, operations, spared, -⟩ := slots_conserve_applications steps
  let session := (({} : Session).run steps).1
  have bound : session.world.application ⟨0⟩ = some ⟨1⟩ := by decide +kernel
  refine ⟨by decide +kernel, by decide +kernel, by decide +kernel, by decide +kernel,
    by decide +kernel, (moments _ _ finish).2, bound, ?_, ?_, by decide +kernel,
    by decide +kernel, by decide +kernel, by decide +kernel, ?_⟩
  · exact returns _ _ (({} : Session).chronicle steps |>.drop 4) (by decide +kernel)
  · exact operations (.slot "other") ⟨0⟩ (by decide +kernel)
  · exact (spared ⟨0⟩ (.newSlot "next") (by decide +kernel)).trans bound

end Session
end ScriptConsole
