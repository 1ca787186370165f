import ScriptConsole.Json.Container
import ScriptConsole.Proofs.Except
import ScriptConsole.Proofs.Json.Reads

/-!
# Items and members one after the other

A printed array or object has no white space, one comma between its parts and none after
the last. Reading takes it apart again, part by part, whatever the parts are; a part that
cannot be read is the fault of the whole.
-/

namespace ScriptConsole.Json

/-- The text starts with a character that stands for itself: no white space, and not the
end of an array. -/
def StartsItem (text : List Char) : Prop :=
  ∃ first rest, text = first :: rest ∧ isBlank first = false ∧ first ≠ ']'

/-- What stands before a part: a comma before each but the first. -/
def comma (first : Bool) : List Char :=
  if first then [] else [',']

theorem dropBlank_of_visible {first : Char} (visible : isBlank first = false)
    (rest : List Char) : dropBlank (first :: rest) = first :: rest := by
  rw [dropBlank, List.dropWhile_cons_of_neg]
  simp [visible]

theorem StartsItem.append {text : List Char} (starts : StartsItem text) (rest : List Char) :
    StartsItem (text ++ rest) := by
  obtain ⟨first, others, rfl, visible, noEnd⟩ := starts
  exact ⟨first, others ++ rest, rfl, visible, noEnd⟩

/-! ## Marks -/

theorem reads_readColon (rest : List Char) : Reads (readColon (':' :: rest)) () rest :=
  ⟨_, rfl⟩

theorem nextItem_finished (first : Bool) (rest : List Char) :
    ∃ within, nextItem first (']' :: rest) = .ok (.finished rest within) :=
  ⟨_, rfl⟩

theorem nextItem_first {text : List Char} (starts : StartsItem text) :
    ∃ within, nextItem true text = .ok (.another text within) := by
  obtain ⟨start, rest, rfl, visible, noEnd⟩ := starts
  have found := dropBlank_of_visible visible rest
  refine ⟨Nat.le_refl _, ?_⟩
  unfold nextItem
  split
  · next empty =>
    rw [found] at empty
    cases empty
  · next ends =>
    rw [found] at ends
    cases ends
    exact absurd rfl noEnd
  · next same =>
    rw [found] at same
    cases same
    rfl

theorem nextItem_later {text : List Char} (starts : StartsItem text) :
    ∃ within, nextItem false (',' :: text) = .ok (.another text within) := by
  obtain ⟨start, rest, rfl, visible, noEnd⟩ := starts
  have found := dropBlank_of_visible visible rest
  refine ⟨Nat.le_succ _, ?_⟩
  unfold nextItem
  split
  · next empty => cases empty
  · next ends => cases ends
  · next same =>
    cases same
    rw [if_neg Bool.false_ne_true, if_pos rfl, found]
    split
    · next empty => cases empty
    · next ends =>
      cases ends
      exact absurd rfl noEnd
    · rfl

/-- The next item starts after the comma, if there is one. -/
theorem nextItem_another {text : List Char} (starts : StartsItem text) (first : Bool) :
    ∃ within, nextItem first (comma first ++ text) = .ok (.another text within) := by
  cases first with
  | true => exact nextItem_first starts
  | false => exact nextItem_later starts

theorem nextKey_finished (first : Bool) (rest : List Char) :
    ∃ within, nextKey first ('\x7d' :: rest) = .ok (.finished rest within) :=
  ⟨_, rfl⟩

/-- The next key starts after the comma, if there is one, and the opening quote. -/
theorem nextKey_another (first : Bool) (rest : List Char) :
    ∃ within, nextKey first (comma first ++ '"' :: rest) = .ok (.another rest within) := by
  cases first
  · exact ⟨_, rfl⟩
  · exact ⟨_, rfl⟩

/-! ## Items -/

section Items

variable {α : Type} {item : Reader α} {text after left : List Char} {head : α} {tail : List α}
  {fault : Error}

theorem reads_readItems_finished (item : Reader α) (first : Bool) (rest : List Char) :
    Reads (readItems item first (']' :: rest)) [] rest := by
  obtain ⟨within, finished⟩ := nextItem_finished first rest
  rw [readItems, finished]
  exact ⟨_, rfl⟩

/-- An item and the items after it. -/
theorem reads_readItems_another (starts : StartsItem text) (first : Bool)
    (reads : Reads (item text) head after)
    (continues : Reads (readItems item false after) tail left) :
    Reads (readItems item first (comma first ++ text)) (head :: tail) left := by
  obtain ⟨within, another⟩ := nextItem_another starts first
  rw [readItems, another]
  exact reads.bind fun _ => continues.bind fun _ => .pure rfl rfl

theorem readItems_error (starts : StartsItem text) (first : Bool)
    (fails : item text = .error fault) :
    readItems item first (comma first ++ text) = .error fault := by
  obtain ⟨within, another⟩ := nextItem_another starts first
  rw [readItems, another]
  simp only [bind_ok, fails, bind_error]

theorem readItems_error_later (starts : StartsItem text) (first : Bool)
    (reads : Reads (item text) head after) (fails : readItems item false after = .error fault) :
    readItems item first (comma first ++ text) = .error fault := by
  obtain ⟨within, another⟩ := nextItem_another starts first
  rw [readItems, another]
  refine reads.bind_error fun _ => ?_
  simp only [fails, bind_error]

end Items

/-! ## Members -/

section Members

variable {κ σ : Type} {key : Reader κ} {member : σ -> κ -> Reader σ} {state next final : σ}
  {name : κ} {text value after left : List Char} {fault : Error}

theorem reads_readMembers_finished (key : Reader κ) (member : σ -> κ -> Reader σ) (state : σ)
    (first : Bool) (rest : List Char) :
    Reads (readMembers key member state first ('\x7d' :: rest)) state rest := by
  obtain ⟨within, finished⟩ := nextKey_finished first rest
  rw [readMembers, finished]
  exact ⟨_, rfl⟩

/-- A member and the members after it. -/
theorem reads_readMembers_another (first : Bool) (names : Reads (key text) name value)
    (reads : Reads (member state name value) next after)
    (continues : Reads (readMembers key member next false after) final left) :
    Reads (readMembers key member state first (comma first ++ '"' :: text)) final left := by
  obtain ⟨within, another⟩ := nextKey_another first text
  rw [readMembers, another]
  exact names.bind fun _ => reads.bind fun _ => continues.bind fun _ => .pure rfl rfl

theorem readMembers_error (first : Bool) (names : Reads (key text) name value)
    (fails : member state name value = .error fault) :
    readMembers key member state first (comma first ++ '"' :: text) = .error fault := by
  obtain ⟨within, another⟩ := nextKey_another first text
  rw [readMembers, another]
  refine names.bind_error fun _ => ?_
  simp only [fails, bind_error]

theorem readMembers_error_later (first : Bool) (names : Reads (key text) name value)
    (reads : Reads (member state name value) next after)
    (fails : readMembers key member next false after = .error fault) :
    readMembers key member state first (comma first ++ '"' :: text) = .error fault := by
  obtain ⟨within, another⟩ := nextKey_another first text
  rw [readMembers, another]
  refine names.bind_error fun _ => reads.bind_error fun _ => ?_
  simp only [fails, bind_error]

end Members

end ScriptConsole.Json
