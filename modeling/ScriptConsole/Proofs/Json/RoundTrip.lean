import ScriptConsole.Json.Shape
import ScriptConsole.Proofs.Json.Container
import ScriptConsole.Proofs.Json.Kinds
import ScriptConsole.Proofs.Json.Numeral
import ScriptConsole.Proofs.Json.Text

/-!
# Printed values are read back

The compact text of a value is read as the value, as long as its arrays and objects nest
no deeper than the reader goes; deeper text is malformed. The induction is on the number
of brackets that may still be opened, as the reader recurses on it.
-/

namespace ScriptConsole.Json

/-! ## Scalars -/

theorem OpensNumber.visible {first : Char} (opens : OpensNumber first) : isBlank first = false := by
  simp only [isBlank, Bool.or_eq_false_iff, decide_eq_false_iff_not]
  refine ⟨⟨⟨?_, ?_⟩, ?_⟩, ?_⟩ <;> exact opens.ne (by decide) (by decide)

section Scalars

variable {first : Char} {text inner left : List Char} {value : Value} {array object : Reader Value}

theorem reads_readValueWith_array (object : Reader Value) (reads : Reads (array inner) value left) :
    Reads (readValueWith array object ('[' :: inner)) value left :=
  reads.bind fun _ => .pure rfl rfl

theorem reads_readValueWith_object (array : Reader Value)
    (reads : Reads (object inner) value left) :
    Reads (readValueWith array object ('\x7b' :: inner)) value left :=
  reads.bind fun _ => .pure rfl rfl

/-- What starts with neither bracket nor white space is a scalar. -/
theorem reads_readValueWith_scalar (array object : Reader Value) (visible : isBlank first = false)
    (noArray : first ≠ '[') (noObject : first ≠ '\x7b')
    (reads : Reads (readScalar (first :: text)) value left) :
    Reads (readValueWith array object (first :: text)) value left := by
  have found := dropBlank_of_visible visible text
  unfold readValueWith
  split
  · next bracket =>
    rw [found] at bracket
    cases bracket
    exact absurd rfl noArray
  · next bracket =>
    rw [found] at bracket
    cases bracket
    exact absurd rfl noObject
  · rw [← found] at reads
    exact reads.bind fun _ => .pure rfl rfl

theorem reads_readScalar_number {number : Number} (opens : OpensNumber first)
    (reads : Reads (readNumber (first :: text)) number left) :
    Reads (readScalar (first :: text)) (.number number) left := by
  rw [readScalar]
  · rw [if_pos (by simpa [OpensNumber] using opens)]
    exact reads.bind fun _ => .pure rfl rfl
  · exact opens.ne (by decide) (by decide)
  · exact opens.ne (by decide) (by decide)
  · exact opens.ne (by decide) (by decide)
  · exact opens.ne (by decide) (by decide)

end Scalars

/-- The text of a value starts with a character that opens it. -/
theorem startsItem_characters (value : Value) : StartsItem value.tree.characters := by
  induction value using Value.cases with
  | null => exact ⟨'n', _, rfl, rfl, by decide⟩
  | boolean truth =>
    cases truth
    · exact ⟨'f', _, rfl, rfl, by decide⟩
    · exact ⟨'t', _, rfl, rfl, by decide⟩
  | number number =>
    obtain ⟨first, others, text, opens⟩ := exists_opening number
    exact ⟨first, others, text, opens.visible, opens.ne (by decide) (by decide)⟩
  | string content => exact ⟨'"', _, rfl, rfl, by decide⟩
  | array items => exact ⟨'[', _, rfl, rfl, by decide⟩
  | object fields => exact ⟨'\x7b', _, rfl, rfl, by decide⟩

/-- The readings of a value inside brackets depend on the nesting that is left. -/
theorem readValue_eq (nesting : ℕ) :
    ∃ array object, readValue nesting = readValueWith array object := by
  cases nesting
  · exact ⟨_, _, rfl⟩
  · exact ⟨_, _, rfl⟩

/-- What needs no bracket is read at every depth. -/
theorem reads_readValue_scalar {value : Value} (flat : value.tree.depth = 0) (nesting : ℕ)
    {rest : List Char} (ends : EndsNumeral rest) :
    Reads (readValue nesting (value.tree.characters ++ rest)) value rest := by
  obtain ⟨array, object, readers⟩ := readValue_eq nesting
  rw [readers]
  induction value using Value.cases with
  | null =>
    exact reads_readValueWith_scalar array object rfl (by decide) (by decide)
      ((reads_readLetters ['u', 'l', 'l'] rest).bind fun _ => .pure rfl rfl)
  | boolean truth =>
    cases truth
    · exact reads_readValueWith_scalar array object rfl (by decide) (by decide)
        ((reads_readLetters ['a', 'l', 's', 'e'] rest).bind fun _ => .pure rfl rfl)
    · exact reads_readValueWith_scalar array object rfl (by decide) (by decide)
        ((reads_readLetters ['r', 'u', 'e'] rest).bind fun _ => .pure rfl rfl)
  | number number =>
    obtain ⟨first, others, text, opens⟩ := exists_opening number
    have reads := reads_readNumber number ends
    have characters : (Value.number number).tree.characters = first :: others := text
    rw [text] at reads
    rw [characters]
    exact reads_readValueWith_scalar array object opens.visible
      (opens.ne (by decide) (by decide)) (opens.ne (by decide) (by decide))
      (reads_readScalar_number opens reads)
  | string content =>
    have text : (Value.string content).tree.characters ++ rest =
        '"' :: (content.toList.flatMap escaped ++ '"' :: rest) := by
      simp [Value.string, characters, stringLiteral]
    rw [text]
    exact reads_readValueWith_scalar array object rfl (by decide) (by decide)
      ((reads_readString content rest).bind fun _ => .pure rfl rfl)
  | array items => cases flat
  | object fields => cases flat

/-! ## Arrays -/

/-- The reading gives the value back from its text. -/
def ReadsBack (nesting : ℕ) (value : Value) : Prop :=
  ∀ rest, EndsNumeral rest -> Reads (readValue nesting (value.tree.characters ++ rest)) value rest

/-- The reading finds the text malformed. -/
def Refuses (nesting : ℕ) (value : Value) : Prop :=
  ∀ rest, readValue nesting (value.tree.characters ++ rest) = .error .malformed

/-- A comma or a closing bracket goes on with no numeral. -/
theorem endsNumeral_of_mark {mark : Char} (isMark : mark = ',' ∨ mark = ']' ∨ mark = '\x7d')
    (rest : List Char) : EndsNumeral (mark :: rest) := by
  intro first starts
  cases starts
  rcases isMark with rfl | rfl | rfl <;> decide

section Items

variable {nesting : ℕ} (item : Value) (items : List Value) (first : Bool) (rest : List Char)

theorem endsNumeral_items :
    EndsNumeral (itemCharacters false (items.map Value.tree) ++ ']' :: rest) := by
  cases items
  · exact endsNumeral_of_mark (.inr (.inl rfl)) _
  · exact endsNumeral_of_mark (.inl rfl) _

theorem itemCharacters_cons :
    itemCharacters first ((item :: items).map Value.tree) ++ ']' :: rest =
      comma first ++ (item.tree.characters ++
        (itemCharacters false (items.map Value.tree) ++ ']' :: rest)) := by
  simp [itemCharacters, comma]

variable {items}

theorem reads_readItems_values (each : ∀ item ∈ items, ReadsBack nesting item) :
    Reads (readItems (readValue nesting) first (itemCharacters first (items.map Value.tree) ++
      ']' :: rest)) items rest := by
  induction items generalizing first with
  | nil => exact reads_readItems_finished _ first rest
  | cons item items ih =>
    have others := ih false fun other member => each other (List.mem_cons_of_mem _ member)
    rw [itemCharacters_cons]
    exact reads_readItems_another ((startsItem_characters item).append _) first
      (each item List.mem_cons_self _ (endsNumeral_items items rest)) others

/-- The first item that nests too deep is the fault of the array. -/
theorem readItems_values_error
    (each : ∀ item ∈ items, item.tree.depth ≤ nesting -> ReadsBack nesting item)
    (deeper : ∀ item ∈ items, nesting < item.tree.depth -> Refuses nesting item)
    (deep : nesting < depthItems (items.map Value.tree)) :
    readItems (readValue nesting) first (itemCharacters first (items.map Value.tree) ++
      ']' :: rest) = .error .malformed := by
  induction items generalizing first with
  | nil => simp [depthItems] at deep
  | cons item items ih =>
    have starts := (startsItem_characters item).append
      (itemCharacters false (items.map Value.tree) ++ ']' :: rest)
    rw [itemCharacters_cons]
    by_cases shallow : item.tree.depth ≤ nesting
    · have later : nesting < depthItems (items.map Value.tree) := by
        simp only [List.map_cons, depthItems] at deep
        omega
      have others := ih false (fun other member => each other (List.mem_cons_of_mem _ member))
        (fun other member => deeper other (List.mem_cons_of_mem _ member)) later
      exact readItems_error_later starts first
        (each item List.mem_cons_self shallow _ (endsNumeral_items items rest)) others
    · exact readItems_error starts first
        (deeper item List.mem_cons_self (Nat.lt_of_not_le shallow) _)

end Items

/-! ## Objects -/

/-- A key beyond all others is put last. -/
theorem insertEntry_of_increasing {key : String} {value : Value}
    {entries : List (String × Value)} (last : ∀ entry ∈ entries, entry.1 < key) :
    Fields.insertEntry key value entries = entries ++ [(key, value)] := by
  induction entries with
  | nil => rfl
  | cons entry rest ih =>
    have before := last entry List.mem_cons_self
    have notAfter : ¬key < entry.1 := String.lt_asymm before
    have different : ¬key = entry.1 := fun same => String.lt_irrefl _ (same ▸ before)
    rw [Fields.insertEntry, if_neg notAfter, if_neg different,
      ih fun other member => last other (List.mem_cons_of_mem _ member)]
    rfl

theorem reads_readField {value : Reader Value} {text left : List Char} {taken : Value}
    (fields : Fields) (key : String) (reads : Reads (value text) taken left) :
    Reads (readField value fields key (':' :: text)) (fields.insert key taken) left :=
  (reads_readColon text).bind fun _ => reads.bind fun _ => .pure rfl rfl

theorem readField_error {value : Reader Value} {text : List Char} {fault : Error}
    (fields : Fields) (key : String) (fails : value text = .error fault) :
    readField value fields key (':' :: text) = .error fault := by
  refine (reads_readColon text).bind_error fun _ => ?_
  simp only [fails, bind_error]

section Members

variable {nesting : ℕ} (entry : String × Value) (entries : List (String × Value)) (first : Bool)
  (rest : List Char)

theorem endsNumeral_fields :
    EndsNumeral (fieldCharacters false (entries.map fieldTree) ++ '\x7d' :: rest) := by
  cases entries
  · exact endsNumeral_of_mark (.inr (.inr rfl)) _
  · exact endsNumeral_of_mark (.inl rfl) _

theorem fieldCharacters_cons :
    fieldCharacters first ((entry :: entries).map fieldTree) ++ '\x7d' :: rest =
      comma first ++ '"' :: (entry.1.toList.flatMap escaped ++ '"' :: ':' ::
        (entry.2.tree.characters ++
          (fieldCharacters false (entries.map fieldTree) ++ '\x7d' :: rest))) := by
  simp [fieldCharacters, fieldTree, stringLiteral, comma]

variable {entries}

/-- Members whose keys increase are put one after the other. -/
theorem reads_readMembers_entries (before : Fields) {fields : Fields}
    (whole : fields.entries = before.entries ++ entries)
    (each : ∀ entry ∈ entries, ReadsBack nesting entry.2) :
    Reads (readMembers readString (readField (readValue nesting)) before first
      (fieldCharacters first (entries.map fieldTree) ++ '\x7d' :: rest)) fields rest := by
  induction entries generalizing first before with
  | nil =>
    have same : before = fields := by
      cases before
      cases fields
      simpa using whole.symm
    rw [← same]
    exact reads_readMembers_finished _ _ before first rest
  | cons entry entries ih =>
    have increasing := whole ▸ fields.increasing
    have last : ∀ other ∈ before.entries, other.1 < entry.1 := fun other member =>
      (List.pairwise_append.1 increasing).2.2 other member entry List.mem_cons_self
    have inserted : (before.insert entry.1 entry.2).entries = before.entries ++ [entry] :=
      insertEntry_of_increasing last
    have next : fields.entries = (before.insert entry.1 entry.2).entries ++ entries := by
      rw [inserted, whole, List.append_assoc, List.singleton_append]
    have others := ih false (before.insert entry.1 entry.2) next
      fun other member => each other (List.mem_cons_of_mem _ member)
    rw [fieldCharacters_cons]
    exact reads_readMembers_another first (reads_readString entry.1 _)
      (reads_readField before entry.1
        (each entry List.mem_cons_self _ (endsNumeral_fields entries rest))) others

/-- The first member that nests too deep is the fault of the object. -/
theorem readMembers_entries_error (before : Fields)
    (each : ∀ entry ∈ entries, entry.2.tree.depth ≤ nesting -> ReadsBack nesting entry.2)
    (deeper : ∀ entry ∈ entries, nesting < entry.2.tree.depth -> Refuses nesting entry.2)
    (deep : nesting < depthFields (entries.map fieldTree)) :
    readMembers readString (readField (readValue nesting)) before first
      (fieldCharacters first (entries.map fieldTree) ++ '\x7d' :: rest) = .error .malformed := by
  induction entries generalizing first before with
  | nil => simp [depthFields] at deep
  | cons entry entries ih =>
    rw [fieldCharacters_cons]
    by_cases shallow : entry.2.tree.depth ≤ nesting
    · have later : nesting < depthFields (entries.map fieldTree) := by
        simp only [List.map_cons, depthFields, fieldTree] at deep
        omega
      have others := ih false (before.insert entry.1 entry.2)
        (fun other member => each other (List.mem_cons_of_mem _ member))
        (fun other member => deeper other (List.mem_cons_of_mem _ member)) later
      exact readMembers_error_later first (reads_readString entry.1 _)
        (reads_readField before entry.1
          (each entry List.mem_cons_self shallow _ (endsNumeral_fields entries rest)))
        others
    · exact readMembers_error first (reads_readString entry.1 _)
        (readField_error before entry.1
          (deeper entry List.mem_cons_self (Nat.lt_of_not_le shallow) _))

end Members

/-! ## Values -/

theorem characters_array (items : List Value) (rest : List Char) :
    (Value.array items).tree.characters ++ rest =
      '[' :: (itemCharacters true (items.map Value.tree) ++ ']' :: rest) := by
  simp [Value.array, characters]

theorem characters_object (fields : Fields) (rest : List Char) :
    (Value.object fields).tree.characters ++ rest =
      '\x7b' :: (fieldCharacters true (fields.entries.map fieldTree) ++ '\x7d' :: rest) := by
  have tree : (Value.object fields).tree = .object (fields.entries.map fieldTree) := rfl
  simp [tree, characters]

/-- A value that nests no deeper than the reader goes is read back from its text. -/
theorem readsBack_of_depth_le (nesting : ℕ) :
    ∀ value : Value, value.tree.depth ≤ nesting -> ReadsBack nesting value := by
  induction nesting with
  | zero =>
    intro value shallow rest ends
    exact reads_readValue_scalar (Nat.le_zero.1 shallow) 0 ends
  | succ nesting ih =>
    intro value shallow rest ends
    induction value using Value.cases with
    | null => exact reads_readValue_scalar rfl _ ends
    | boolean truth => exact reads_readValue_scalar rfl _ ends
    | number number => exact reads_readValue_scalar rfl _ ends
    | string content => exact reads_readValue_scalar rfl _ ends
    | array items =>
      have each := depthItems_le_iff.1 (Nat.le_of_succ_le_succ shallow)
      have reads := reads_readItems_values true rest fun item member =>
        ih item (each item member)
      rw [characters_array]
      exact reads_readValueWith_array _ (reads.bind fun _ => .pure rfl rfl)
    | object fields =>
      have each := depthFields_le_iff.1 (Nat.le_of_succ_le_succ shallow)
      have reads := reads_readMembers_entries true rest .empty rfl fun entry member =>
        ih entry.2 (each entry member)
      rw [characters_object]
      exact reads_readValueWith_object _ (reads.bind fun _ => .pure rfl rfl)

/-- What is wrong inside the brackets is wrong with the array. -/
theorem readValueWith_array_error {array : Reader Value} (object : Reader Value)
    {inner : List Char} {fault : Error} (fails : array inner = .error fault) :
    readValueWith array object ('[' :: inner) = .error fault := by
  have inside : readValueWith array object ('[' :: inner) =
      array inner >>= fun taken => pure (taken.afterBlank rfl) := rfl
  rw [inside, fails, bind_error]

theorem readValueWith_object_error (array : Reader Value) {object : Reader Value}
    {inner : List Char} {fault : Error} (fails : object inner = .error fault) :
    readValueWith array object ('\x7b' :: inner) = .error fault := by
  have inside : readValueWith array object ('\x7b' :: inner) =
      object inner >>= fun taken => pure (taken.afterBlank rfl) := rfl
  rw [inside, fails, bind_error]

/-- A value that nests deeper than the reader goes is malformed. -/
theorem refuses_of_lt_depth (nesting : ℕ) :
    ∀ value : Value, nesting < value.tree.depth -> Refuses nesting value := by
  induction nesting with
  | zero =>
    intro value deep rest
    induction value using Value.cases with
    | null => exact absurd deep (Nat.not_lt_zero 0)
    | boolean truth => exact absurd deep (Nat.not_lt_zero 0)
    | number number => exact absurd deep (Nat.not_lt_zero 0)
    | string content => exact absurd deep (Nat.not_lt_zero 0)
    | array items =>
      rw [characters_array]
      rfl
    | object fields =>
      rw [characters_object]
      rfl
  | succ nesting ih =>
    intro value deep rest
    have each := fun value : Value => readsBack_of_depth_le nesting value
    induction value using Value.cases with
    | null => exact absurd deep (Nat.not_lt_zero _)
    | boolean truth => exact absurd deep (Nat.not_lt_zero _)
    | number number => exact absurd deep (Nat.not_lt_zero _)
    | string content => exact absurd deep (Nat.not_lt_zero _)
    | array items =>
      have fails := readItems_values_error true rest (fun item _ => each item)
        (fun item _ => ih item) (Nat.lt_of_succ_lt_succ deep)
      rw [characters_array]
      exact readValueWith_array_error _ (by rw [fails, bind_error])
    | object fields =>
      have fails := readMembers_entries_error true rest .empty
        (fun entry _ => each entry.2) (fun entry _ => ih entry.2) (Nat.lt_of_succ_lt_succ deep)
      rw [characters_object]
      exact readValueWith_object_error _ (by rw [fails, bind_error])

/-! ## Whole texts -/

theorem readAll_eq_ok {α : Type} {reader : Reader α} {text : List Char} {value : α}
    (reads : Reads (reader text) value []) : readAll reader text = .ok value := by
  obtain ⟨within, read⟩ := reads
  rw [readAll, read]
  rfl

theorem readAll_eq_error {α : Type} {reader : Reader α} {text : List Char} {fault : Error}
    (fails : reader text = .error fault) : readAll reader text = .error fault := by
  rw [readAll, fails, bind_error]

theorem reads_readExpectedArray {α : Type} {item : Reader α} {inner left : List Char}
    {values : List α} (reads : Reads (readItems item true inner) values left) :
    Reads (readExpectedArray item ('[' :: inner)) values left :=
  reads.bind fun _ => .pure rfl rfl

theorem readExpectedArray_error {α : Type} {item : Reader α} {inner : List Char} {fault : Error}
    (fails : readItems item true inner = .error fault) :
    readExpectedArray item ('[' :: inner) = .error fault := by
  have inside : readExpectedArray item ('[' :: inner) =
      readItems item true inner >>= fun taken => pure (taken.afterBlank rfl) := rfl
  rw [inside, fails, bind_error]

end ScriptConsole.Json
