import ScriptConsole.Json.Shape
import ScriptConsole.Proofs.Json.Recognition

/-!
# Arrays and objects with white space

Reading the items of an array, or the members of an object, agrees with the grammar if reading
one item or one member does. The state that members are put to follows the list of members:
`Trail`.
-/

namespace ScriptConsole.Json

open Grammar

variable {α β κ σ : Type}

/-! ## Places of the next part -/

section Next

variable {first : Bool} {text rest : List Char}

theorem nextItem_of_close (first : Bool) (found : dropBlank text = ']' :: rest) :
    ∃ within, nextItem first text = .ok (.finished rest within) := by
  refine ⟨length_lt_of_dropBlank found, ?_⟩
  unfold nextItem
  split
  · next empty =>
    rw [found] at empty
    cases empty
  · next same =>
    rw [found] at same
    cases same
    rfl
  · next start _ noEnd same =>
    rw [found] at same
    cases same
    exact (noEnd rfl).elim

/-- The place of the next item, which may have white space before it. -/
theorem nextItem_of_part {before between : List Char} (first : Bool) (blank : Blank before)
    (alsoBlank : Blank between) (starts : StartsItem text) :
    ∃ lead within, Blank lead ∧
      nextItem first (before ++ (comma first ++ (between ++ text))) =
        .ok (.another (lead ++ text) within) := by
  obtain ⟨start, others, rfl, visible, noEnd⟩ := starts
  cases first with
  | true =>
    have found : dropBlank (before ++ (comma true ++ (between ++ start :: others))) =
        start :: others := by
      rw [blank.dropBlank_append]
      exact alsoBlank.dropBlank_cons visible others
    refine ⟨[], length_le_of_dropBlank found, .nil, ?_⟩
    unfold nextItem
    split
    · next empty =>
      rw [found] at empty
      cases empty
    · next ends =>
      rw [found] at ends
      cases ends
      exact absurd rfl noEnd
    · next same =>
      rw [found] at same
      cases same
      rfl
  | false =>
    have found : dropBlank (before ++ (comma false ++ (between ++ start :: others))) =
        ',' :: (between ++ start :: others) := blank.dropBlank_cons rfl _
    have next : dropBlank (between ++ start :: others) = start :: others :=
      alsoBlank.dropBlank_cons visible others
    refine ⟨between, Nat.le_of_lt (length_lt_of_dropBlank found), alsoBlank, ?_⟩
    unfold nextItem
    split
    · next empty =>
      rw [found] at empty
      cases empty
    · next ends =>
      rw [found] at ends
      cases ends
    · next same =>
      rw [found] at same
      cases same
      rw [if_neg Bool.false_ne_true, if_pos rfl]
      simp only [next]

theorem dropBlank_of_nextItem_finished {within : rest.length < text.length}
    (read : nextItem first text = .ok (.finished rest within)) : dropBlank text = ']' :: rest := by
  unfold nextItem at read
  split at read
  · cases read
  · next found =>
    cases read
    exact found
  · split at read
    · cases read
    · split at read
      · split at read <;> cases read
      · cases read

/-- The next item stands after white space, and a comma if there is an item before. -/
theorem exists_of_nextItem_another {within : rest.length ≤ text.length}
    (read : nextItem first text = .ok (.another rest within)) :
    ∃ before, Blank before ∧ text = before ++ (comma first ++ rest) := by
  unfold nextItem at read
  split at read
  · cases read
  · cases read
  · next found =>
    obtain ⟨before, blank, same⟩ := exists_blank found
    split at read
    · next isFirst =>
      cases read
      exact ⟨before, blank, isFirst ▸ same⟩
    · next notFirst =>
      split at read
      · next isComma =>
        split at read
        · cases read
        · cases read
        · cases read
          exact ⟨before, blank, by rw [same, Bool.eq_false_iff.2 notFirst, isComma]; rfl⟩
      · cases read

theorem nextKey_of_close (first : Bool) (found : dropBlank text = '\x7d' :: rest) :
    ∃ within, nextKey first text = .ok (.finished rest within) := by
  refine ⟨length_lt_of_dropBlank found, ?_⟩
  unfold nextKey
  split
  · next empty =>
    rw [found] at empty
    cases empty
  · next same =>
    rw [found] at same
    cases same
    rfl
  · next start _ noEnd same =>
    rw [found] at same
    cases same
    exact (noEnd rfl).elim

/-- The place after the quote that opens the next key. -/
theorem nextKey_of_part {before between : List Char} (first : Bool) (blank : Blank before)
    (alsoBlank : Blank between) (rest : List Char) :
    ∃ within, nextKey first (before ++ (comma first ++ (between ++ '"' :: rest))) =
      .ok (.another rest within) := by
  cases first with
  | true =>
    have found : dropBlank (before ++ (comma true ++ (between ++ '"' :: rest))) = '"' :: rest := by
      rw [blank.dropBlank_append]
      exact alsoBlank.dropBlank_cons rfl rest
    obtain ⟨within, quote⟩ := reads_readMark found
    refine ⟨Nat.le_of_lt within, ?_⟩
    unfold nextKey
    split
    · next empty =>
      rw [found] at empty
      cases empty
    · next ends =>
      rw [found] at ends
      cases ends
    · rw [if_pos rfl, quote]
      rfl
  | false =>
    have found : dropBlank (before ++ (comma false ++ (between ++ '"' :: rest))) =
        ',' :: (between ++ '"' :: rest) := blank.dropBlank_cons rfl _
    obtain ⟨within, quote⟩ := reads_readMark (@Grammar.Blank.dropBlank_cons _ alsoBlank '"' rfl rest)
    have less := length_lt_of_dropBlank found
    refine ⟨by omega, ?_⟩
    unfold nextKey
    split
    · next empty =>
      rw [found] at empty
      cases empty
    · next ends =>
      rw [found] at ends
      cases ends
    · next same =>
      rw [found] at same
      cases same
      rw [if_neg Bool.false_ne_true, if_pos rfl, quote]
      rfl

theorem dropBlank_of_nextKey_finished {within : rest.length < text.length}
    (read : nextKey first text = .ok (.finished rest within)) :
    dropBlank text = '\x7d' :: rest := by
  unfold nextKey at read
  split at read
  · cases read
  · next found =>
    cases read
    exact found
  · split at read
    · obtain ⟨quote, -, read⟩ := bind_eq_ok_iff.1 read
      cases pure_eq_ok_iff.1 read
    · split at read
      · obtain ⟨quote, -, read⟩ := bind_eq_ok_iff.1 read
        cases pure_eq_ok_iff.1 read
      · cases read

theorem exists_of_nextKey_another {within : rest.length ≤ text.length}
    (read : nextKey first text = .ok (.another rest within)) :
    ∃ before between, Blank before ∧ Blank between ∧
      text = before ++ (comma first ++ (between ++ '"' :: rest)) := by
  unfold nextKey at read
  split at read
  · cases read
  · cases read
  · next start others _ found =>
    split at read
    · next isFirst =>
      obtain ⟨quote, quoteRead, read⟩ := bind_eq_ok_iff.1 read
      cases pure_eq_ok_iff.1 read
      obtain ⟨before, blank, same⟩ :=
        exists_blank (dropBlank_of_readMark ⟨quote.within, quoteRead⟩)
      exact ⟨before, [], blank, .nil, isFirst ▸ same⟩
    · next notFirst =>
      split at read
      · next isComma =>
        obtain ⟨quote, quoteRead, read⟩ := bind_eq_ok_iff.1 read
        cases pure_eq_ok_iff.1 read
        obtain ⟨before, blank, same⟩ := exists_blank found
        obtain ⟨between, alsoBlank, more⟩ :=
          exists_blank (dropBlank_of_readMark ⟨quote.within, quoteRead⟩)
        refine ⟨before, between, blank, alsoBlank, ?_⟩
        rw [same, Bool.eq_false_iff.2 notFirst, isComma]
        exact congrArg (fun tail => before ++ ',' :: tail) more
      · cases read

end Next

/-! ## Items -/

section Items

variable {item : Reader α} {part : α -> List Char -> Prop} {close : Char} {first : Bool}

/-- What follows a part goes on with no numeral. -/
theorem Grammar.Parts.endsNumeral {items : List α} {text rest : List Char}
    (parts : Parts part false items text) (ends : EndsNumeral rest) :
    EndsNumeral (text ++ rest) := by
  cases parts with
  | none => exact ends
  | another blank =>
    simp only [List.append_assoc]
    exact blank.endsNumeral (endsNumeral_cons _ (by decide))

theorem Grammar.Closed.endsNumeral {items : List α} {text : List Char}
    (closed : Closed part close false items text) (isBracket : close = ']' ∨ close = '\x7d')
    (rest : List Char) : EndsNumeral (text ++ rest) := by
  obtain @⟨parts, before, isParts, blank⟩ := closed
  rw [List.append_assoc, List.append_assoc]
  refine isParts.endsNumeral (blank.endsNumeral (endsNumeral_cons _ ?_))
  rcases isBracket with rfl | rfl <;> decide

/-- Reading items one after the other agrees with the grammar if reading one item does. -/
theorem lexes_readItems (items : Recognises item part)
    (starts : ∀ value text, part value text -> StartsItem text) (first : Bool) :
    Lexes (readItems item first) (Closed part ']' first) where
  reads := by
    rintro values _ rest (@⟨parts, closing, isParts, blank⟩)
    induction isParts with
    | none first =>
      have whole : [] ++ (closing ++ [']']) ++ rest = closing ++ ']' :: rest := by simp
      obtain ⟨within, finished⟩ := nextItem_of_close first (blank.dropBlank_cons rfl rest)
      rw [whole, readItems, finished]
      exact ⟨_, rfl⟩
    | @another first value values before between text others alsoBlank betweenBlank isPart
        isParts ih =>
      have ends := (Closed.parts isParts blank).endsNumeral (.inl rfl) rest
      have whole : before ++ (comma first ++ (between ++ (text ++ others))) ++
          (closing ++ [']']) ++ rest = before ++ (comma first ++ (between ++ (text ++
          (others ++ (closing ++ [']']) ++ rest)))) := by simp
      obtain ⟨lead, within, leadBlank, another⟩ :=
        nextItem_of_part first alsoBlank betweenBlank ((starts value text isPart).append _)
      rw [whole, readItems, another]
      refine (items.reads leadBlank isPart ends).bind fun _ => ?_
      exact ih.bind fun _ => .pure rfl rfl
  sound := by
    intro text
    induction first, text using readItems.induct (α := α) with
    | case1 first text ih =>
      intro values rest reads
      rw [readItems] at reads
      obtain ⟨outer, read⟩ := reads
      obtain ⟨next, nextRead, read⟩ := bind_eq_ok_iff.1 read
      cases next with
      | finished left within =>
        obtain ⟨rfl, rfl⟩ := Reads.of_pure ⟨outer, read⟩
        obtain ⟨before, blank, rfl⟩ := exists_blank (dropBlank_of_nextItem_finished nextRead)
        exact ⟨[] ++ (before ++ [']']), by simp, .parts (.none first) blank⟩
      | another left within =>
        obtain ⟨before, blank, rfl⟩ := exists_of_nextItem_another nextRead
        obtain ⟨value, after, valueWithin, valueReads, reads⟩ := Reads.of_bind ⟨outer, read⟩
        obtain ⟨others, last, lastWithin, othersRead, reads⟩ := reads.of_bind
        obtain ⟨rfl, rfl⟩ := reads.of_pure
        obtain ⟨between, front, alsoBlank, rfl, isPart⟩ := items.sound valueReads
        obtain ⟨_, rfl, isParts, closing⟩ :=
          ih (between ++ (front ++ after)) within ⟨value, after, valueWithin⟩ othersRead
        refine ⟨_, ?_, .parts (.another blank alsoBlank isPart isParts) closing⟩
        simp [Taken.map, Taken.followedBy, Taken.widen]

end Items

/-! ## Members -/

/-- The state after members were put to it one after the other. -/
inductive Trail (step : σ -> κ -> σ -> List Char -> Prop) : σ -> List (κ × List Char) -> σ -> Prop
    where
  | nil (state : σ) : Trail step state [] state
  | cons {state next final : σ} {name : κ} {value : List Char}
      {others : List (κ × List Char)} (isStep : step state name next value)
      (rest : Trail step next others final) : Trail step state ((name, value) :: others) final

theorem trail_cons_iff {step : σ -> κ -> σ -> List Char -> Prop} {state final : σ} {name : κ}
    {value : List Char} {others : List (κ × List Char)} :
    Trail step state ((name, value) :: others) final ↔
      ∃ next, step state name next value ∧ Trail step next others final := by
  constructor
  · intro trail
    cases trail with
    | cons isStep rest => exact ⟨_, isStep, rest⟩
  · rintro ⟨next, isStep, rest⟩
    exact .cons isStep rest

section Members

variable {key : Reader κ} {keyBody : κ -> List Char -> Prop} {member : σ -> κ -> Reader σ}
  {step : σ -> κ -> σ -> List Char -> Prop}

/-- Reading the members from a member on is reading those after it, in the state that it leads
to. -/
theorem readMembers_of_member (keys : Lexes key keyBody)
    (members : ∀ state name, Recognises (member state name) (AfterColon (step state name)))
    {state next : σ} {name : κ} {value before between text rest : List Char} (first : Bool)
    (blank : Blank before) (alsoBlank : Blank between) (isMember : Member keyBody (name, value) text)
    (isStep : step state name next value) (ends : EndsNumeral rest) :
    ∃ whole : Taken σ rest.length ->
        Taken σ (before ++ (comma first ++ (between ++ (text ++ rest)))).length,
      (∀ others, (whole others).value = others.value ∧ (whole others).rest = others.rest) ∧
      readMembers key member state first (before ++ (comma first ++ (between ++ (text ++ rest)))) =
        readMembers key member next false rest >>= fun others => pure (whole others) := by
  obtain @⟨_, body, after, betweenValue, _, isKey, afterBlank, valueBlank⟩ := isMember
  have regrouped : '"' :: (body ++ (after ++ ':' :: (betweenValue ++ value))) ++ rest =
      '"' :: (body ++ (after ++ ((':' :: (betweenValue ++ value)) ++ rest))) := by simp
  obtain ⟨within, another⟩ := nextKey_of_part first blank alsoBlank
    (body ++ (after ++ ((':' :: (betweenValue ++ value)) ++ rest)))
  obtain ⟨keyWithin, keyRead⟩ := keys.reads (after ++ ((':' :: (betweenValue ++ value)) ++ rest)) isKey
  obtain ⟨memberWithin, memberRead⟩ :=
    (members state name).reads afterBlank (.colon valueBlank isStep) ends
  rw [regrouped, readMembers, another, bind_ok]
  dsimp only
  rw [keyRead, bind_ok]
  dsimp only
  rw [memberRead, bind_ok]
  exact ⟨_, fun _ => ⟨rfl, rfl⟩, rfl⟩

/-- Reading members one after the other agrees with the grammar if reading one member does, and
gives the state that they lead to. -/
theorem lexes_readMembers (keys : Lexes key keyBody)
    (members : ∀ state name, Recognises (member state name) (AfterColon (step state name)))
    (state : σ) (first : Bool) :
    Lexes (readMembers key member state first) fun final text => ∃ parts,
      Closed (Member keyBody) '\x7d' first parts text ∧ Trail step state parts final where
  reads := by
    rintro final _ rest ⟨listed, @⟨parts, closing, isParts, blank⟩, trail⟩
    induction isParts generalizing state with
    | none first =>
      cases trail
      have whole : [] ++ (closing ++ ['\x7d']) ++ rest = closing ++ '\x7d' :: rest := by simp
      obtain ⟨within, finished⟩ := nextKey_of_close first (blank.dropBlank_cons rfl rest)
      rw [whole, readMembers, finished]
      exact ⟨_, rfl⟩
    | @another first part parts before between text others alsoBlank betweenBlank isPart isParts
        ih =>
      cases trail with
      | @cons _ next _ name value _ isStep trail =>
        have ends := (Closed.parts isParts blank).endsNumeral (.inr rfl) rest
        have regrouped : before ++ (comma first ++ (between ++ (text ++ others))) ++
            (closing ++ ['\x7d']) ++ rest = before ++ (comma first ++ (between ++ (text ++
            (others ++ (closing ++ ['\x7d']) ++ rest)))) := by simp
        obtain ⟨whole, same, step⟩ :=
          readMembers_of_member keys members first alsoBlank betweenBlank isPart isStep ends
        rw [regrouped, step]
        exact (ih next trail).bind fun _ => .pure (same _).1 (same _).2
  sound := by
    intro text
    induction state, first, text using readMembers.induct (κ := κ) with
    | case1 state first text ih =>
      intro final rest reads
      rw [readMembers] at reads
      obtain ⟨outer, read⟩ := reads
      obtain ⟨next, nextRead, read⟩ := bind_eq_ok_iff.1 read
      cases next with
      | finished left within =>
        obtain ⟨rfl, rfl⟩ := Reads.of_pure ⟨outer, read⟩
        obtain ⟨before, blank, rfl⟩ := exists_blank (dropBlank_of_nextKey_finished nextRead)
        exact ⟨[] ++ (before ++ ['\x7d']), by simp, [], .parts (.none first) blank, .nil state⟩
      | another left within =>
        obtain ⟨before, between, blank, alsoBlank, rfl⟩ := exists_of_nextKey_another nextRead
        obtain ⟨name, afterKey, keyWithin, keyReads, reads⟩ := Reads.of_bind ⟨outer, read⟩
        obtain ⟨next, afterMember, memberWithin, memberReads, reads⟩ := reads.of_bind
        obtain ⟨last, left, lastWithin, othersRead, reads⟩ := reads.of_bind
        obtain ⟨rfl, rfl⟩ := reads.of_pure
        obtain ⟨body, rfl, isKey⟩ := keys.sound keyReads
        obtain ⟨after, _, afterBlank, rfl, ⟨valueBlank, isStep⟩⟩ :=
          (members state name).sound memberReads
        obtain ⟨_, rfl, parts, ⟨isParts, closing⟩, trail⟩ := ih _ within
          ⟨name, _, keyWithin⟩ ⟨next, afterMember, memberWithin⟩ othersRead
        refine ⟨_, ?_, _, .parts (.another blank alsoBlank (.member isKey afterBlank valueBlank)
          isParts) closing, .cons isStep trail⟩
        simp [Taken.followedBy, Taken.widen]

end Members

end ScriptConsole.Json
