import ScriptConsole.Json.Shape
import ScriptConsole.Proofs.Except
import ScriptConsole.Proofs.Json.Kinds

/-!
# What is read nests no deeper than the reader goes

A reader that may open some number of brackets gives no value that nests deeper, whatever the
text is. It is enough to follow what holds of every value that a reader gives, through the
items of an array and through the members of an object.
-/

namespace ScriptConsole.Json

/-- Every value that the reader gives has the property. -/
def Gives {α : Type} (reader : Reader α) (property : α -> Prop) : Prop :=
  ∀ text taken, reader text = .ok taken -> property taken.value

section Containers

variable {α κ σ : Type} {item : Reader α} {key : Reader κ} {member : σ -> κ -> Reader σ}
  {property : α -> Prop} {invariant : σ -> Prop}

/-- What holds of every item holds of all items of an array. -/
theorem gives_readItems (each : Gives item property) (first : Bool) :
    Gives (readItems item first) fun values => ∀ value ∈ values, property value := by
  intro text
  induction first, text using readItems.induct (α := α) with
  | case1 first text ih =>
    intro taken read
    rw [readItems] at read
    obtain ⟨next, -, read⟩ := bind_eq_ok_iff.1 read
    cases next with
    | finished rest within =>
      cases pure_eq_ok_iff.1 read
      exact List.forall_mem_nil _
    | another rest within =>
      obtain ⟨head, headRead, read⟩ := bind_eq_ok_iff.1 read
      obtain ⟨tail, tailRead, read⟩ := bind_eq_ok_iff.1 read
      cases pure_eq_ok_iff.1 read
      exact List.forall_mem_cons.2
        ⟨each rest head headRead, ih rest within head tail tailRead⟩

/-- What every member keeps holds of the state after all members of an object. -/
theorem gives_readMembers
    (keeps : ∀ state name, invariant state -> Gives (member state name) invariant) {state : σ}
    (holds : invariant state) (first : Bool) :
    Gives (readMembers key member state first) invariant := by
  intro text
  induction state, first, text using readMembers.induct (κ := κ) with
  | case1 state first text ih =>
    intro taken read
    rw [readMembers] at read
    obtain ⟨next, -, read⟩ := bind_eq_ok_iff.1 read
    cases next with
    | finished rest within =>
      cases pure_eq_ok_iff.1 read
      exact holds
    | another rest within =>
      obtain ⟨name, -, read⟩ := bind_eq_ok_iff.1 read
      obtain ⟨after, afterRead, read⟩ := bind_eq_ok_iff.1 read
      obtain ⟨others, othersRead, read⟩ := bind_eq_ok_iff.1 read
      cases pure_eq_ok_iff.1 read
      exact ih rest within name after (keeps state name.value holds _ after afterRead) others
        othersRead

end Containers

/-! ## Values -/

theorem mem_insertEntry {key : String} {value : Value} {entries : List (String × Value)}
    {entry : String × Value} (member : entry ∈ Fields.insertEntry key value entries) :
    entry = (key, value) ∨ entry ∈ entries := by
  induction entries with
  | nil => exact .inl (List.mem_singleton.1 member)
  | cons head rest ih =>
    unfold Fields.insertEntry at member
    split_ifs at member
    · exact List.mem_cons.1 member
    · exact (List.mem_cons.1 member).imp_right (List.mem_cons_of_mem head)
    · rcases List.mem_cons.1 member with isHead | inRest
      · exact .inr (isHead ▸ List.mem_cons_self)
      · exact (ih inRest).imp_right (List.mem_cons_of_mem head)

section Values

variable {property : Value -> Prop} {array object value : Reader Value}

/-- A scalar does not nest. -/
theorem gives_readScalar : Gives readScalar fun value => value.tree.depth = 0 := by
  intro text taken read
  unfold readScalar at read
  split at read
  · cases read
  · obtain ⟨written, -, read⟩ := bind_eq_ok_iff.1 read
    cases pure_eq_ok_iff.1 read
    rfl
  · obtain ⟨letters, -, read⟩ := bind_eq_ok_iff.1 read
    cases pure_eq_ok_iff.1 read
    rfl
  · obtain ⟨letters, -, read⟩ := bind_eq_ok_iff.1 read
    cases pure_eq_ok_iff.1 read
    rfl
  · obtain ⟨letters, -, read⟩ := bind_eq_ok_iff.1 read
    cases pure_eq_ok_iff.1 read
    rfl
  · split at read
    · obtain ⟨number, -, read⟩ := bind_eq_ok_iff.1 read
      cases pure_eq_ok_iff.1 read
      rfl
    · cases read

/-- A value is what comes after one of the two brackets, or a scalar. -/
theorem gives_readValueWith (arrays : Gives array property) (objects : Gives object property)
    (scalars : Gives readScalar property) : Gives (readValueWith array object) property := by
  intro text taken read
  unfold readValueWith at read
  split at read
  · obtain ⟨inside, insideRead, read⟩ := bind_eq_ok_iff.1 read
    cases pure_eq_ok_iff.1 read
    exact arrays _ inside insideRead
  · obtain ⟨inside, insideRead, read⟩ := bind_eq_ok_iff.1 read
    cases pure_eq_ok_iff.1 read
    exact objects _ inside insideRead
  · obtain ⟨scalar, scalarRead, read⟩ := bind_eq_ok_iff.1 read
    cases pure_eq_ok_iff.1 read
    exact scalars _ scalar scalarRead

/-- A member puts one value to those that were there. -/
theorem gives_readField (each : Gives value property) {fields : Fields}
    (holds : ∀ entry ∈ fields.entries, property entry.2) (key : String) :
    Gives (readField value fields key) fun after => ∀ entry ∈ after.entries, property entry.2 := by
  intro text taken read
  obtain ⟨colon, -, read⟩ := bind_eq_ok_iff.1 read
  obtain ⟨inside, insideRead, read⟩ := bind_eq_ok_iff.1 read
  cases pure_eq_ok_iff.1 read
  intro entry member
  rcases mem_insertEntry member with rfl | old
  · exact each _ inside insideRead
  · exact holds entry old

end Values

/-- The induction is on the brackets that may still be opened, as the reader recurses on
them. -/
theorem gives_readValue (nesting : ℕ) :
    Gives (readValue nesting) fun value => value.tree.depth ≤ nesting := by
  have scalars : ∀ bound, Gives readScalar fun value => value.tree.depth ≤ bound :=
    fun bound text taken read => (gives_readScalar text taken read).trans_le (Nat.zero_le bound)
  induction nesting with
  | zero => exact gives_readValueWith nofun nofun (scalars 0)
  | succ nesting ih =>
    refine gives_readValueWith ?_ ?_ (scalars (nesting + 1))
    · intro text taken read
      obtain ⟨items, itemsRead, read⟩ := bind_eq_ok_iff.1 read
      cases pure_eq_ok_iff.1 read
      exact Nat.succ_le_succ (depthItems_le_iff.2 (gives_readItems ih true text items itemsRead))
    · intro text taken read
      obtain ⟨fields, fieldsRead, read⟩ := bind_eq_ok_iff.1 read
      cases pure_eq_ok_iff.1 read
      have each : Gives (readMembers readString (readField (readValue nesting)) .empty true)
          fun fields => ∀ entry ∈ fields.entries, entry.2.tree.depth ≤ nesting :=
        gives_readMembers (fun _ name holds => gives_readField ih holds name)
          (List.forall_mem_nil _) true
      exact Nat.succ_le_succ (depthFields_le_iff.2 (each text fields fieldsRead))

/-! ## Whole texts -/

section Texts

variable {α : Type} {reader item : Reader α} {property : α -> Prop}

theorem gives_readExpectedArray (each : Gives item property) :
    Gives (readExpectedArray item) fun values => ∀ value ∈ values, property value := by
  intro text taken read
  unfold readExpectedArray at read
  split at read
  · obtain ⟨items, itemsRead, read⟩ := bind_eq_ok_iff.1 read
    cases pure_eq_ok_iff.1 read
    exact gives_readItems each true _ items itemsRead
  · cases read

theorem Gives.of_readAll (gives : Gives reader property) {text : List Char} {value : α}
    (read : readAll reader text = .ok value) : property value := by
  obtain ⟨taken, front, read⟩ := bind_eq_ok_iff.1 read
  split at read
  · cases pure_eq_ok_iff.1 read
    exact gives text taken front
  · cases read

end Texts

end ScriptConsole.Json
