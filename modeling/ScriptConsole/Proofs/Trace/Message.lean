import ScriptConsole.Proofs.Trace.Text

/-!
# The place of the message

A message that is recorded as a text comes first in the text of its event, wherever among the
fields it is recorded. Two messages differ from this. What is gathered tells nothing from an
empty message, so an empty one that comes late leaves its separator in front. And a typed
scalar is no text, so it is shown under its name like any other field.
-/

namespace ScriptConsole.Trace

variable {fields before after others : List Field} {gathered text : String} {value : FieldValue}

/-- The words of the fields that are not the message, in order. -/
def assignments (fields : List Field) : List String :=
  fields.filterMap Field.assignment?

theorem assignments_append (first second : List Field) :
    assignments (first ++ second) = assignments first ++ assignments second :=
  List.filterMap_append

/-- A word more is put behind what is gathered, with a single space between them. -/
theorem spaced_append_word (gathered word : String) (words : List String) :
    spaced ((gathered ++ " " ++ word) :: words) = spaced (gathered :: word :: words) := by
  rw [spaced, spaced, String.intercalate_cons_append, String.intercalate_cons_of_ne_nil
    (List.cons_ne_nil word words)]

theorem spaced_spaced_append {first : List String} (nonempty : first ≠ []) (second : List String) :
    spaced (spaced first :: second) = spaced (first ++ second) := by
  cases second with
  | nil => rw [List.append_nil, spaced, String.intercalate_singleton]
  | cons word words =>
    rw [spaced, spaced, String.intercalate_cons_of_ne_nil (List.cons_ne_nil word words), spaced,
      String.intercalate_append_of_ne_nil nonempty (List.cons_ne_nil word words)]

/-! ## Fields that are not the message -/

/-- What is gathered is kept, and a field that is not the message is put behind it. -/
theorem gather_of_ne_empty (nonempty : gathered ≠ "") {field : Field}
    (other : field.name ≠ messageName) :
    gather gathered field = spaced (gathered :: field.assignment?.toList) := by
  have visible : gathered.isEmpty = false := by simpa using nonempty
  cases recorded : field.value.recorded with
  | nothing => simp [gather, Field.assignment?, Recorded.text?, recorded, spaced]
  | scalar text =>
    simp [gather, Field.assignment?, Recorded.text?, recorded, other, appendField, visible, spaced]
  | text text =>
    simp [gather, Field.assignment?, Recorded.text?, recorded, other, appendField, visible, spaced]

theorem foldl_gather_of_ne_empty (nonempty : gathered ≠ "")
    (unnamed : ∀ field ∈ fields, field.name ≠ messageName) :
    fields.foldl gather gathered = spaced (gathered :: assignments fields) := by
  induction fields generalizing gathered with
  | nil => exact String.intercalate_singleton.symm
  | cons field rest ih =>
    have first := gather_of_ne_empty nonempty (unnamed field List.mem_cons_self)
    have restUnnamed := fun other member => unnamed other (List.mem_cons_of_mem field member)
    cases word : field.assignment? with
    | none =>
      have same : gather gathered field = gathered := by
        rw [first, word]
        exact String.intercalate_singleton
      have words : assignments (field :: rest) = assignments rest := by
        simp only [assignments, List.filterMap_cons, word]
      rw [List.foldl_cons, same, words]
      exact ih nonempty restUnnamed
    | some word' =>
      have longer : gather gathered field = gathered ++ " " ++ word' := by
        rw [first, word]
        simp [spaced]
      have words : assignments (field :: rest) = word' :: assignments rest := by
        simp only [assignments, List.filterMap_cons, word]
      have longerNonempty : gathered ++ " " ++ word' ≠ "" := by
        simp [String.append_eq_empty_iff, nonempty]
      rw [List.foldl_cons, longer, words, ih longerNonempty restUnnamed, spaced_append_word]

theorem foldl_gather_empty (unnamed : ∀ field ∈ fields, field.name ≠ messageName) :
    fields.foldl gather "" = spaced (assignments fields) := by
  have plain : ∀ field ∈ fields, field.Plain :=
    fun field member isMessage => absurd isMessage (unnamed field member)
  have noMessage : fields.filterMap Field.message? = [] := by
    rw [List.filterMap_eq_nil_iff]
    intro field member
    rw [Field.message?, if_neg (unnamed field member)]
  have gathered := @foldl_gather_spaced fields [] [] plain (by simp)
    (by simp [noMessage])
  rw [noMessage] at gathered
  exact gathered

theorem ne_empty_of_mem_assignments {word : String} (member : word ∈ assignments fields) :
    word ≠ "" := by
  obtain ⟨field, -, holds⟩ := List.mem_filterMap.1 member
  exact Field.assignment_ne_empty holds

/-! ## The message among the other fields -/

theorem spaced_ne_empty {first : String} {words : List String}
    (visible : first ≠ "" ∨ words ≠ []) : spaced (first :: words) ≠ "" := by
  cases words with
  | nil =>
    rcases visible with nonempty | other
    · rwa [spaced, String.intercalate_singleton]
    · exact absurd rfl other
  | cons word words => simp [spaced, String.append_eq_empty_iff]

theorem body_eq_foldl (unnamed : ∀ field ∈ before, field.name ≠ messageName)
    (severity : Severity) (message : Field) :
    Event.body ⟨severity, before ++ message :: after⟩ =
      after.foldl gather (gather (spaced (assignments before)) message) := by
  rw [Event.body, List.foldl_append, List.foldl_cons, foldl_gather_empty unnamed]

/-- A message that is a text stands before all other fields, if there is anything to tell it
from no message: it is not empty, or it comes late. -/
theorem body_of_text (unnamedBefore : ∀ field ∈ before, field.name ≠ messageName)
    (unnamedAfter : ∀ field ∈ after, field.name ≠ messageName)
    (recorded : value.recorded = .text text) (visible : text ≠ "" ∨ assignments before ≠ [])
    (severity : Severity) :
    Event.body ⟨severity, before ++ ⟨messageName, value⟩ :: after⟩ =
      spaced (text :: assignments (before ++ after)) := by
  have first : gather (spaced (assignments before)) ⟨messageName, value⟩ =
      spaced (text :: assignments before) := by
    simp only [gather, recorded, if_true]
    exact putMessage_spaced (fun _ => ne_empty_of_mem_assignments) text
  rw [body_eq_foldl unnamedBefore, first,
    foldl_gather_of_ne_empty (spaced_ne_empty visible) unnamedAfter,
    spaced_spaced_append (List.cons_ne_nil _ _), List.cons_append, assignments_append]

/-- A scalar that is named as the message is a field like any other. -/
theorem body_of_scalar (unnamedBefore : ∀ field ∈ before, field.name ≠ messageName)
    (unnamedAfter : ∀ field ∈ after, field.name ≠ messageName)
    (recorded : value.recorded = .scalar text) (severity : Severity) :
    Event.body ⟨severity, before ++ ⟨messageName, value⟩ :: after⟩ =
      spaced (assignments before ++ ("message=" ++ text) :: assignments after) := by
  have behind : gather (spaced (assignments before)) ⟨messageName, value⟩ =
      spaced (assignments before ++ ["message=" ++ text]) := by
    simp only [gather, recorded]
    exact appendField_spaced (fun _ => ne_empty_of_mem_assignments) messageName text
  have shown : spaced (assignments before ++ ["message=" ++ text]) ≠ "" := by
    cases assignments before with
    | nil => exact spaced_ne_empty (.inl (by simp [String.append_eq_empty_iff]))
    | cons word words => exact spaced_ne_empty (.inr (by simp))
  rw [body_eq_foldl unnamedBefore, behind, foldl_gather_of_ne_empty shown unnamedAfter,
    spaced_spaced_append (by simp), List.append_assoc, List.singleton_append]

/-- Where the message stands in the text of an event. Let it be recorded at any place among
other fields. If it is a text that is not empty, then the text of the event is the message
and after it the other fields in their order, whatever the place. An empty text is the same
as no message if it comes first, but late it leaves a space in front. A typed scalar keeps
its place among the fields, with its name. -/
theorem message_comes_first (unnamed : ∀ field ∈ others, field.name ≠ messageName)
    (place : before ++ after = others) (severity : Severity) (value : FieldValue) :
    let body := Event.body ⟨severity, before ++ ⟨messageName, value⟩ :: after⟩
    (∀ text, value.recorded = .text text -> text ≠ "" ->
        body = spaced (text :: assignments others)) ∧
      (value.recorded = .text "" ->
        body = (if assignments before = [] then "" else " ") ++ spaced (assignments others)) ∧
      (∀ text, value.recorded = .scalar text ->
        body = spaced (assignments before ++ ("message=" ++ text) :: assignments after)) ∧
      (value.recorded = .nothing -> body = spaced (assignments others)) := by
  subst place
  have unnamedBefore := fun field member => unnamed field (List.mem_append_left after member)
  have unnamedAfter := fun field member => unnamed field (List.mem_append_right before member)
  intro body
  refine ⟨fun text recorded nonempty => ?_, fun recorded => ?_, fun text recorded => ?_,
    fun recorded => ?_⟩
  · exact body_of_text unnamedBefore unnamedAfter recorded (.inl nonempty) severity
  · by_cases early : assignments before = []
    · have start : gather (spaced (assignments before)) ⟨messageName, value⟩ = "" := by
        simp [gather, recorded, early, spaced, putMessage]
      rw [if_pos early, String.empty_append, assignments_append, early, List.nil_append]
      simp only [body]
      rw [body_eq_foldl unnamedBefore, start, foldl_gather_empty unnamedAfter]
    · have some : assignments (before ++ after) ≠ [] := by
        simp [assignments_append, early]
      rw [if_neg early]
      simp only [body]
      rw [body_of_text unnamedBefore unnamedAfter recorded (.inr early), spaced,
        String.intercalate_cons_of_ne_nil some, String.empty_append]
      rfl
  · exact body_of_scalar unnamedBefore unnamedAfter recorded severity
  · have passed : gather (spaced (assignments before)) ⟨messageName, value⟩ =
        spaced (assignments before) := by
      simp only [gather, recorded]
    simp only [body]
    rw [body_eq_foldl unnamedBefore, passed, ← foldl_gather_empty unnamedBefore,
      ← List.foldl_append, foldl_gather_empty unnamed]

/-- A message between two fields that are recorded and one that is not: a text that is shown
in quotes, nothing visible, and a number. -/
theorem message_comes_first_between :
    let before : List Field := [⟨"id", .integer (-7)⟩, ⟨"user", .absent⟩]
    let after : List Field := [⟨"cached", .boolean true⟩]
    let body := fun value => Event.body ⟨.info, before ++ ⟨messageName, value⟩ :: after⟩
    (∀ field ∈ before ++ after, field.name ≠ messageName) ∧
      body (.quoted "slow") = "\"slow\" id=-7 cached=true" ∧
      body (.text "") = " id=-7 cached=true" ∧
      body (.natural 5) = "id=-7 message=5 cached=true" ∧ body .absent = "id=-7 cached=true" := by
  intro before after body
  have unnamed : ∀ field ∈ before ++ after, field.name ≠ messageName := by
    simp [before, after, messageName]
  have place := message_comes_first unnamed rfl Severity.info
  refine ⟨unnamed, ?_, ?_, ?_, ?_⟩
  · exact ((place (.quoted "slow")).1 _ rfl (by decide +kernel)).trans (by decide +kernel)
  · exact ((place (.text "")).2.1 rfl).trans (by decide +kernel)
  · exact ((place (.natural 5)).2.2.1 _ rfl).trans (by decide +kernel)
  · exact ((place .absent).2.2.2 rfl).trans (by decide +kernel)

/-- The place of an empty message shows in the text of its event, and a message that is a
number is shown under its name. -/
theorem place_and_kind_of_message_matter :
    let field : Field := ⟨"id", .integer 1⟩
    let empty : Field := ⟨messageName, .text ""⟩
    let number : Field := ⟨messageName, .integer 5⟩
    Event.body ⟨.info, [empty, field]⟩ ≠ Event.body ⟨.info, [field, empty]⟩ ∧
      Event.body ⟨.info, [number]⟩ ≠ "5" ∧ Event.body ⟨.info, [number]⟩ = "message=5" := by
  decide +kernel

end ScriptConsole.Trace
