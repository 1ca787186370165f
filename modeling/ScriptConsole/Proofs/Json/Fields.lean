import ScriptConsole.Proofs.Json.Record

/-!
# The fields of an object

An object has its members in one way, if they hold values: no text is two objects. What the
members give under a name decides a field of a record, and other members may hold any values.
-/

namespace ScriptConsole.Json

open Grammar

variable {α β : Type} {text rest : List Char} {listed also : List (String × List Char)}

/-! ## One reading -/

theorem Grammar.Bracketed.exists_dropBlank {opening : Char} {inside : List Char -> Prop}
    (bracketed : Bracketed opening inside text) (visible : isBlank opening = false) :
    ∃ inner after, dropBlank text = opening :: (inner ++ after) ∧ inside inner := by
  obtain @⟨before, inner, after, blank, isInside, -⟩ := bracketed
  exact ⟨inner, after, blank.dropBlank_cons visible _, isInside⟩

/-- An array is no object. -/
theorem not_array_of_object {inside other : List Char -> Prop}
    (object : Bracketed '\x7b' inside text) : ¬Bracketed '[' other text := by
  intro array
  obtain ⟨_, _, found, -⟩ := object.exists_dropBlank rfl
  obtain ⟨_, _, alsoFound, -⟩ := array.exists_dropBlank rfl
  rw [found] at alsoFound
  cases alsoFound

/-- A string that denotes a text is a string. -/
theorem looseBody_of_keyBody {value : String} {body : List Char} (isBody : KeyBody value body) :
    LooseBody () body := by
  unfold KeyBody at isBody
  generalize value.toList = characters at isBody
  induction isBody with
  | close => exact ⟨[], .close⟩
  | plain noQuote noBackslash visible _ ih =>
    obtain ⟨units, others⟩ := ih
    exact ⟨() :: units, .plain noQuote noBackslash visible others⟩
  | escaped known _ ih =>
    obtain ⟨units, others⟩ := ih
    cases known with
    | letter known =>
      exact ⟨() :: units, .escaped (.letter (Option.isSome_of_mem known)) others⟩
    | unit hexadecimal => exact ⟨() :: units, .escaped (.unit hexadecimal) others⟩
    | @pair high low first second highDigits lowDigits =>
      -- the two halves of a pair are two escapes here
      have regrouped : ∀ rest, 'u' :: (first ++ '\\' :: 'u' :: second) ++ rest =
          'u' :: first ++ '\\' :: ('u' :: second ++ rest) := by simp
      rw [regrouped]
      exact ⟨() :: () :: units, .escaped (.unit highDigits) (.escaped (.unit lowDigits) others)⟩

theorem Grammar.Literal.anyValue {value : String} (literal : Literal value text) :
    AnyValue text := by
  obtain ⟨body, isBody, rfl⟩ := literal
  exact ⟨1, .inl (.string (looseBody_of_keyBody isBody))⟩

theorem Grammar.Literal.unique {value other : String} (literal : Literal value text)
    (again : Literal other text) : value = other := by
  obtain ⟨body, isBody, rfl⟩ := literal
  obtain ⟨_, alsoBody, same⟩ := again
  cases same
  exact ((lexes_readString.reads [] isBody).unique (lexes_readString.reads [] alsoBody)).1

/-- The text of a value that is passed over. -/
def passedText : Reader (List Char) := fun text => do
  let passed <- passValue text
  return passed.map fun _ => (dropBlank text).take ((dropBlank text).length - passed.rest.length)

theorem recognises_passedText :
    Recognises passedText fun passed text => passed = text ∧ AnyValue text := by
  have taken : ∀ {before front rest : List Char}, Blank before -> AnyValue front ->
      (dropBlank (before ++ (front ++ rest))).take
        ((dropBlank (before ++ (front ++ rest))).length - rest.length) = front := by
    rintro before front rest blank ⟨levels, value⟩
    obtain ⟨first, others, rfl, visible, -⟩ := value.startsItem
    rw [List.cons_append, blank.dropBlank_cons visible, ← List.cons_append, List.length_append,
      Nat.add_sub_cancel, List.take_left]
  constructor
  · rintro before _ front rest blank ⟨rfl, value⟩ ends
    have passed := @Recognises.reads _ _ _ recognises_passValue _ () _ _ blank value ends
    exact passed.bind fun _ => .pure (taken blank value) rfl
  · intro text passed rest reads
    obtain ⟨_, left, within, valueRead, reads⟩ := reads.of_bind
    obtain ⟨rfl, rfl⟩ := reads.of_pure
    obtain ⟨before, front, blank, rfl, value⟩ := recognises_passValue.sound valueRead
    have same := @taken before front left blank value
    exact ⟨before, front, blank, rfl, same, value⟩

/-- Members are met one after the other. -/
theorem trail_met_iff {met final : List (String × List Char)} :
    Trail (fun met name next value => next = met ++ [(name, value)] ∧ AnyValue value) met listed
      final ↔ (∀ member ∈ listed, AnyValue member.2) ∧ final = met ++ listed := by
  induction listed generalizing met with
  | nil =>
    rw [List.append_nil]
    constructor
    · intro trail
      cases trail
      exact ⟨nofun, rfl⟩
    · rintro ⟨-, rfl⟩
      exact .nil _
  | cons member others ih =>
    rw [trail_cons_iff, List.forall_mem_cons]
    simp only [ih, List.append_assoc, List.singleton_append, and_assoc, exists_eq_left]

/-- An object whose members hold values has its members in one way. -/
theorem members_unique (object : ObjectText listed text)
    (values : ∀ member ∈ listed, AnyValue member.2) (again : ObjectText also text)
    (alsoValues : ∀ member ∈ also, AnyValue member.2) : listed = also := by
  have collects (met : List (String × List Char)) (name : String) :
      Recognises (fun text => do
        let colon <- readColon text
        return colon.followedBy ((<- passedText colon.rest).map fun value => met ++ [(name, value)]))
        (AfterColon fun next value => next = met ++ [(name, value)] ∧ AnyValue value) :=
    recognises_afterColon recognises_passedText fun next value =>
      ⟨fun ⟨same, isValue⟩ => ⟨value, ⟨rfl, isValue⟩, same.symm⟩,
        fun ⟨_, ⟨same, isValue⟩, made⟩ => ⟨by rw [← made, same], isValue⟩⟩
  have members := lexes_readMembers lexes_readString collects [] true
  obtain ⟨inner, after, found, closed⟩ := object.exists_dropBlank rfl
  obtain ⟨inner', after', alsoFound, alsoClosed⟩ := again.exists_dropBlank rfl
  have reads := members.reads after ⟨listed, closed, trail_met_iff.2 ⟨values, rfl⟩⟩
  have alsoReads := members.reads after' ⟨also, alsoClosed, trail_met_iff.2 ⟨alsoValues, rfl⟩⟩
  rw [(List.cons.inj (found.symm.trans alsoFound)).2] at reads
  exact (reads.unique alsoReads).1

/-- An array of string literals has them in one way. -/
theorem items_unique {values others : List String} (array : StringArrayText values text)
    (again : StringArrayText others text) : values = others := by
  have items := lexes_readItems (recognises_readExpectedString .string)
    (fun _ _ literal => literal.startsItem) true
  obtain ⟨inner, after, found, closed⟩ := array.exists_dropBlank rfl
  obtain ⟨inner', after', alsoFound, alsoClosed⟩ := again.exists_dropBlank rfl
  have reads := items.reads after closed
  rw [(List.cons.inj (found.symm.trans alsoFound)).2] at reads
  exact (reads.unique (items.reads after' alsoClosed)).1

/-! ## What the members give under a name -/

/-- The texts of the members of a name. -/
def textsOf (name : String) (members : List (String × List Char)) : List (List Char) :=
  (members.filter fun member => member.1 = name).map Prod.snd

theorem textsOf_cons (name : String) (member : String × List Char) :
    textsOf name (member :: listed) =
      if member.1 = name then member.2 :: textsOf name listed else textsOf name listed := by
  unfold textsOf
  rw [List.filter_cons]
  by_cases isName : member.1 = name
  · rw [if_pos (decide_eq_true isName), if_pos isName, List.map_cons]
  · rw [if_neg (by simpa using isName), if_neg isName]

theorem mem_textsOf {member : String × List Char} (isMember : member ∈ listed) :
    member.2 ∈ textsOf member.1 listed :=
  List.mem_map_of_mem (List.mem_filter.2 ⟨isMember, decide_eq_true rfl⟩)

/-- The members of other names hold any values. -/
def OthersStand (known : List String) (members : List (String × List Char)) : Prop :=
  ∀ member ∈ members, member.1 ∉ known -> AnyValue member.2

theorem othersStand_nil (known : List String) : OthersStand known [] :=
  List.forall_mem_nil _

theorem othersStand_cons_iff {known : List String} {member : String × List Char} :
    OthersStand known (member :: listed) ↔
      (member.1 ∉ known -> AnyValue member.2) ∧ OthersStand known listed :=
  List.forall_mem_cons

/-- Members hold values if those of all known names do. -/
theorem OthersStand.values {known : List String} (stand : OthersStand known listed)
    (values : ∀ name ∈ known, ∀ value ∈ textsOf name listed, AnyValue value) :
    ∀ member ∈ listed, AnyValue member.2 := by
  intro member isMember
  by_cases isKnown : member.1 ∈ known
  · exact values member.1 isKnown member.2 (mem_textsOf isMember)
  · exact stand member isMember isKnown

/-- What the texts of a name make of the field that was met before them: a field is given at most
once. -/
inductive Settles (stands : α -> List Char -> Prop) :
    Option α -> List (List Char) -> Option α -> Prop where
  | unchanged (state : Option α) : Settles stands state [] state
  | given {item : α} {text : List Char} (isItem : stands item text) :
      Settles stands none [text] (some item)

section Settles

variable {stands : α -> List Char -> Prop} {state final : Option α} {texts : List (List Char)}

/-- Another text of a field is only taken if there was none before it. -/
theorem settles_cons_iff : Settles stands state (text :: texts) final ↔
    ∃ next, (state = none ∧ ∃ item, stands item text ∧ some item = next) ∧
      Settles stands next texts final := by
  constructor
  · intro settles
    cases settles with
    | @given item _ isItem => exact ⟨some item, ⟨rfl, item, isItem, rfl⟩, .unchanged _⟩
  · rintro ⟨_, ⟨rfl, item, isItem, rfl⟩, settles⟩
    cases settles
    exact .given isItem

theorem settles_nil_iff : Settles stands state [] final ↔ final = state := by
  constructor
  · intro settles
    cases settles
    rfl
  · rintro rfl
    exact .unchanged _

/-- A field that was not met is given by one text. -/
theorem settles_none_some_iff {item : α} :
    Settles stands none texts (some item) ↔ ∃ text, texts = [text] ∧ stands item text := by
  constructor
  · intro settles
    cases settles with
    | given isItem => exact ⟨_, rfl, isItem⟩
  · rintro ⟨text, rfl, isItem⟩
    exact .given isItem

theorem Settles.length_le (settles : Settles stands state texts final) : texts.length ≤ 1 := by
  cases settles <;> simp

theorem Settles.each (settles : Settles stands state texts final) :
    ∀ text ∈ texts, ∃ item, stands item text := by
  cases settles with
  | unchanged => exact nofun
  | given isItem => exact List.forall_mem_singleton.2 ⟨_, isItem⟩

end Settles

/-- The members give a name once, as a string. -/
def GivesOnce (name value : String) (members : List (String × List Char)) : Prop :=
  ∃ literal, textsOf name members = [literal] ∧ Literal value literal

theorem GivesOnce.values {name value : String} (once : GivesOnce name value listed) :
    ∀ text ∈ textsOf name listed, AnyValue text := by
  obtain ⟨literal, only, isLiteral⟩ := once
  rw [only]
  exact List.forall_mem_singleton.2 isLiteral.anyValue

theorem GivesOnce.unique {name value other : String} (once : GivesOnce name value listed)
    (again : GivesOnce name other listed) : value = other := by
  obtain ⟨literal, only, isLiteral⟩ := once
  obtain ⟨_, alsoOnly, alsoLiteral⟩ := again
  cases only.symm.trans alsoOnly
  exact isLiteral.unique alsoLiteral

/-- Printed texts are values. -/
theorem othersStand_printedMembers (known : List String) (fields : List (String × String)) :
    OthersStand known (printedMembers fields) := by
  intro member isMember _
  obtain ⟨field, -, rfl⟩ := List.mem_map.1 isMember
  exact (literal_stringLiteral field.2).anyValue

theorem textsOf_printedMembers (name : String) (fields : List (String × String)) :
    textsOf name (printedMembers fields) =
      ((fields.filter fun field => field.1 = name).map Prod.snd).map stringLiteral := by
  rw [textsOf, printedMembers, List.filter_map, List.map_map, List.map_map]
  rfl

/-- A name that is printed once is given once. -/
theorem givesOnce_printedMembers {name value : String} {fields : List (String × String)}
    (once : (fields.filter fun field => field.1 = name).map Prod.snd = [value]) :
    GivesOnce name value (printedMembers fields) :=
  ⟨stringLiteral value, by rw [textsOf_printedMembers, once, List.map_singleton],
    literal_stringLiteral value⟩

end ScriptConsole.Json
