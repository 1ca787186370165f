import ScriptConsole.Proofs.Double.Nearest

/-!
# The value of a double

A finite double is a rational number. A quotient rounds to the double that no other is nearer
to; of two that are equally near it rounds to the one with the even significand. What this
says of all doubles is decided at the two neighbours, halfway to which the rounding interval
ends: `roundsTo_signed_iff`.
-/

namespace ScriptConsole.Double

/-- The magnitude of a double. Infinity counts as the first magnitude that is too large, as
if there were one more binade. -/
def magnitude (number : Double) : ℚ :=
  number.significand * 2 ^ number.scale

/-- The number with the sign of a double. -/
def signed (number : Double) (quotient : ℚ) : ℚ :=
  if number.isNegative then -quotient else quotient

/-- The number that a double denotes. -/
def value (number : Double) : ℚ :=
  number.signed number.magnitude

/-- The quotient rounds to the double. -/
structure RoundsTo (quotient : ℚ) (number : Double) : Prop where
  nearest : ∀ other : Double, other.isNaN = false ->
    |quotient - number.value| ≤ |quotient - other.value|
  tie : ∀ other : Double, other.isNaN = false -> other.value ≠ number.value ->
    |quotient - number.value| = |quotient - other.value| -> number.significand % 2 = 0

/-! ## The distance to other doubles -/

section Gaps

variable {number other : Double}

theorem two_pow_scale_pos (number : Double) : (0 : ℚ) < 2 ^ number.scale :=
  zpow_pos two_pos _

theorem magnitude_nonneg (number : Double) : 0 ≤ number.magnitude :=
  mul_nonneg (Nat.cast_nonneg _) number.two_pow_scale_pos.le

theorem magnitude_pos (nonzero : 0 < number.significand) : 0 < number.magnitude :=
  mul_pos (by exact_mod_cast nonzero) number.two_pow_scale_pos

/-- The place and the significand can be told from the pattern. -/
theorem parts_eq {place significand : ℕ}
    (bits : number.magnitudeBits = place * hiddenBit + significand)
    (small : significand < 2 * hiddenBit) (normal : place = 0 ∨ hiddenBit ≤ significand) :
    number.scale = place - 1074 ∧ number.significand = significand := by
  have same := number.magnitudeBits_eq
  have bound := number.significand_lt
  have lowest := number.scale_ge
  have hidden := fun above => number.hiddenBit_le_significand above
  simp only [hiddenBit] at *
  omega

/-- The next larger double is one last place away, and all others are farther. -/
theorem magnitude_add_le (more : number.magnitudeBits < other.magnitudeBits) :
    number.magnitude + 2 ^ number.scale ≤ other.magnitude := by
  have bits := number.magnitudeBits_eq
  have otherBits := other.magnitudeBits_eq
  have bound := number.significand_lt
  have otherBound := other.significand_lt
  have unit := number.two_pow_scale_pos
  have total : number.magnitude + 2 ^ number.scale =
      ((number.significand + 1 : ℕ) : ℚ) * 2 ^ number.scale := by
    rw [magnitude]
    push_cast
    ring
  rw [total]
  rcases lt_trichotomy number.scale other.scale with less | same | greater
  · have hidden := hiddenBit_le_significand (number.scale_ge.trans_lt less)
    calc ((number.significand + 1 : ℕ) : ℚ) * 2 ^ number.scale
        ≤ ((2 * hiddenBit : ℕ) : ℚ) * 2 ^ number.scale := by
          gcongr
          omega
      _ = (hiddenBit : ℚ) * 2 ^ (number.scale + 1) := by
          rw [zpow_add₀ two_ne_zero]
          push_cast
          ring
      _ ≤ other.significand * 2 ^ other.scale := by
          gcongr
          · exact one_le_two
          · omega
  · rw [magnitude, ← same]
    rw [same] at bits
    gcongr
    omega
  · have hidden := hiddenBit_le_significand (other.scale_ge.trans_lt greater)
    have := other.scale_ge
    simp only [hiddenBit] at *
    omega

/-- The ends of the rounding interval are half a last place away, and below a power of two a
quarter. -/
theorem two_mul_upper (number : Double) :
    2 * (number.upperEnd * number.quarter) = 2 * number.magnitude + 2 ^ number.scale := by
  rw [upperEnd_eq, quarter_eq, magnitude]
  ring

theorem two_mul_lower_of_startsBinade (starts : number.startsBinade = true) :
    2 * (number.lowerEnd * number.quarter) = 2 * number.magnitude - 2 ^ (number.scale - 1) := by
  rw [lowerEnd_of_startsBinade starts, quarter_eq, magnitude, zpow_sub₀ two_ne_zero]
  ring

theorem two_mul_lower_of_not_startsBinade (inside : number.startsBinade = false)
    (nonzero : 0 < number.significand) :
    2 * (number.lowerEnd * number.quarter) = 2 * number.magnitude - 2 ^ number.scale := by
  rw [lowerEnd_of_not_startsBinade inside nonzero, quarter_eq, magnitude]
  ring

/-- A double of a lower binade is at least half a last place below the first one of a higher
binade. -/
theorem magnitude_le_of_scale_lt (lower : other.scale < number.scale) :
    other.magnitude ≤ hiddenBit * 2 ^ number.scale - 2 ^ (number.scale - 1) := by
  have bound := other.significand_lt
  have half : (2 : ℚ) ^ number.scale = 2 * 2 ^ (number.scale - 1) := by
    rw [zpow_sub₀ two_ne_zero]
    ring
  calc other.magnitude ≤ ((2 * hiddenBit - 1 : ℕ) : ℚ) * 2 ^ (number.scale - 1) := by
        unfold magnitude
        gcongr
        · omega
        · exact one_le_two
        · omega
    _ = hiddenBit * 2 ^ number.scale - 2 ^ (number.scale - 1) := by
        rw [half, Nat.cast_sub (by simp only [hiddenBit]; omega)]
        push_cast
        ring

/-- Of the doubles with smaller magnitude none is nearer than the lower end of the rounding
interval is halfway to. -/
theorem magnitude_add_magnitude_le (nonzero : 0 < number.significand)
    (less : other.magnitudeBits < number.magnitudeBits) :
    number.magnitude + other.magnitude ≤ 2 * (number.lowerEnd * number.quarter) := by
  have notMore : ¬number.scale < other.scale := by
    intro higher
    have bits := number.magnitudeBits_eq
    have otherBits := other.magnitudeBits_eq
    have bound := number.significand_lt
    have hidden := hiddenBit_le_significand (number.scale_ge.trans_lt higher)
    have := number.scale_ge
    simp only [hiddenBit] at *
    omega
  cases starts : number.startsBinade with
  | true =>
    rw [two_mul_lower_of_startsBinade starts]
    obtain ⟨whole, normal⟩ := startsBinade_iff.1 starts
    have lower : other.scale < number.scale := by
      refine lt_of_le_of_ne (not_lt.1 notMore) fun same => ?_
      have bits := number.magnitudeBits_eq
      have otherBits := other.magnitudeBits_eq
      have hidden := hiddenBit_le_significand (same ▸ normal)
      rw [same] at otherBits
      omega
    have far := magnitude_le_of_scale_lt lower
    have own : number.magnitude = hiddenBit * 2 ^ number.scale := by rw [magnitude, whole]
    linarith
  | false =>
    rw [two_mul_lower_of_not_startsBinade starts nonzero]
    suffices near : other.magnitude + 2 ^ number.scale ≤ number.magnitude by linarith
    rcases lt_or_eq_of_le (not_lt.1 notMore) with lower | same
    · have hidden := hiddenBit_le_significand (other.scale_ge.trans_lt lower)
      have more : hiddenBit + 1 ≤ number.significand := by
        refine lt_of_le_of_ne hidden fun same => ?_
        have := startsBinade_iff.2 ⟨same.symm, other.scale_ge.trans_lt lower⟩
        exact Bool.false_ne_true (starts.symm.trans this)
      have far := magnitude_le_of_scale_lt lower
      have half : (0 : ℚ) < 2 ^ (number.scale - 1) := zpow_pos two_pos _
      have own : ((hiddenBit + 1 : ℕ) : ℚ) * 2 ^ number.scale ≤ number.magnitude := by
        unfold magnitude
        gcongr
      push_cast at own
      linarith
    · have unit := magnitude_add_le less
      rwa [same] at unit

/-! ## Neighbours -/

theorem magnitudeBits_ofMagnitude (negative : Bool) {bits : ℕ} (small : bits ≤ infinityBits) :
    (ofMagnitude negative bits).magnitudeBits = bits := by
  simp only [magnitudeBits, ofMagnitude, Nat.min_eq_left small]
  simp only [infinityBits, hiddenBit] at small
  simp only [signBit]
  split_ifs <;> omega

theorem isNegative_ofMagnitude (negative : Bool) {bits : ℕ} (small : bits ≤ infinityBits) :
    (ofMagnitude negative bits).isNegative = negative := by
  simp only [isNegative, ofMagnitude, Nat.min_eq_left small]
  simp only [infinityBits, hiddenBit] at small
  simp only [signBit]
  cases negative
  · simp only [Bool.false_eq_true, if_false, decide_eq_false_iff_not]
    omega
  · simp only [if_true, decide_eq_true_eq]
    omega

/-- A double of the same sign next to another. -/
structure Neighbour (number other : Double) : Prop where
  isNumber : other.isNaN = false
  sign : other.isNegative = number.isNegative

theorem neighbour_ofMagnitude (number : Double) {bits : ℕ} (small : bits ≤ infinityBits) :
    number.Neighbour (ofMagnitude number.isNegative bits) where
  isNumber := by
    rw [isNaN, magnitudeBits_ofMagnitude _ small]
    exact decide_eq_false (not_lt.2 small)
  sign := isNegative_ofMagnitude _ small

/-- There is a double one last place above every finite one, if infinity is counted. -/
theorem exists_above (finite : number.isFinite = true) :
    ∃ other, number.Neighbour other ∧ other.magnitude = number.magnitude + 2 ^ number.scale := by
  have small : number.magnitudeBits + 1 ≤ infinityBits := by
    simpa [isFinite] using finite
  refine ⟨_, number.neighbour_ofMagnitude small, ?_⟩
  set other := ofMagnitude number.isNegative (number.magnitudeBits + 1) with isOther
  have bits : other.magnitudeBits = number.magnitudeBits + 1 := magnitudeBits_ofMagnitude _ small
  have own := number.magnitudeBits_eq
  have bound := number.significand_lt
  have lowest := number.scale_ge
  by_cases carries : number.significand + 1 = 2 * hiddenBit
  · -- the last double of a binade is followed by the first of the next one
    have parts : other.magnitudeBits =
        ((number.scale + 1074).toNat + 1) * hiddenBit + hiddenBit := by
      rw [bits, own, add_assoc, carries]
      ring
    obtain ⟨scale, significand⟩ := parts_eq parts (by simp only [hiddenBit]; omega) (.inr le_rfl)
    have up : other.scale = number.scale + 1 := by omega
    have full : (number.significand : ℚ) + 1 = 2 * hiddenBit := by exact_mod_cast carries
    rw [magnitude, magnitude, significand, up, zpow_add₀ two_ne_zero]
    linear_combination (-(2 : ℚ) ^ number.scale) * full
  · have hidden := fun above => number.hiddenBit_le_significand above
    obtain ⟨scale, significand⟩ := @parts_eq other (number.scale + 1074).toNat
      (number.significand + 1) (by rw [bits, own, add_assoc]) (by omega) (by omega)
    have same : other.scale = number.scale := by omega
    rw [magnitude, magnitude, significand, same]
    push_cast
    ring

/-- Halfway to the next smaller double the rounding interval ends. -/
theorem exists_below (finite : number.isFinite = true) (nonzero : 0 < number.significand) :
    ∃ other, number.Neighbour other ∧ other.magnitude < number.magnitude ∧
      number.magnitude + other.magnitude = 2 * (number.lowerEnd * number.quarter) := by
  have own := number.magnitudeBits_eq
  have positive : 0 < number.magnitudeBits := by omega
  have small : number.magnitudeBits - 1 ≤ infinityBits := by
    simp only [isFinite, decide_eq_true_eq] at finite
    omega
  refine ⟨_, number.neighbour_ofMagnitude small, ?_⟩
  set other := ofMagnitude number.isNegative (number.magnitudeBits - 1) with isOther
  have bits : other.magnitudeBits = number.magnitudeBits - 1 := magnitudeBits_ofMagnitude _ small
  have bound := number.significand_lt
  have lowest := number.scale_ge
  have unit := number.two_pow_scale_pos
  cases starts : number.startsBinade with
  | true =>
    -- the next smaller double is the last of the binade below
    obtain ⟨whole, normal⟩ := startsBinade_iff.1 starts
    have places : (number.scale + 1074).toNat = ((number.scale - 1 + 1074).toNat) + 1 := by omega
    have parts : other.magnitudeBits =
        (number.scale - 1 + 1074).toNat * hiddenBit + (2 * hiddenBit - 1) := by
      rw [bits, own, whole, places]
      simp only [hiddenBit]
      omega
    obtain ⟨scale, significand⟩ := parts_eq parts (by simp only [hiddenBit]; omega)
      (.inr (by simp only [hiddenBit]; omega))
    have down : other.scale = number.scale - 1 := by omega
    have cast : ((2 * hiddenBit - 1 : ℕ) : ℚ) = 2 * hiddenBit - 1 := by
      rw [Nat.cast_sub (by simp only [hiddenBit]; omega)]
      push_cast
      ring
    have lower : other.magnitude = number.magnitude - 2 ^ (number.scale - 1) := by
      rw [magnitude, magnitude, significand, down, whole, cast, zpow_sub₀ two_ne_zero]
      ring
    have half : (0 : ℚ) < 2 ^ (number.scale - 1) := zpow_pos two_pos _
    rw [two_mul_lower_of_startsBinade starts, lower]
    exact ⟨by linarith, by ring⟩
  | false =>
    have hidden := fun above => number.hiddenBit_le_significand above
    have inside : -1074 < number.scale -> number.significand ≠ hiddenBit := fun above same =>
      Bool.false_ne_true (starts.symm.trans (startsBinade_iff.2 ⟨same, above⟩))
    obtain ⟨scale, significand⟩ := @parts_eq other (number.scale + 1074).toNat
      (number.significand - 1) (by rw [bits, own]; omega) (by omega) (by omega)
    have same : other.scale = number.scale := by omega
    have lower : other.magnitude = number.magnitude - 2 ^ number.scale := by
      rw [magnitude, magnitude, significand, same, Nat.cast_sub nonzero]
      push_cast
      ring
    rw [two_mul_lower_of_not_startsBinade starts nonzero, lower]
    exact ⟨by linarith, by ring⟩

end Gaps

/-! ## Rounding -/

section Rounding

variable {number other : Double} {quotient : ℚ}

/-- Which of two points is nearer depends on the side of their middle. -/
theorem abs_sub_le_abs_sub_iff (quotient near far : ℚ) :
    |quotient - near| ≤ |quotient - far| ↔
      0 ≤ (near - far) * (2 * quotient - (near + far)) := by
  have squares : (quotient - far) ^ 2 - (quotient - near) ^ 2 =
      (near - far) * (2 * quotient - (near + far)) := by ring
  rw [← sq_le_sq, ← sub_nonneg, squares]

theorem abs_sub_eq_abs_sub_iff (quotient near far : ℚ) :
    |quotient - near| = |quotient - far| ↔
      (near - far) * (2 * quotient - (near + far)) = 0 := by
  have squares : (quotient - far) ^ 2 - (quotient - near) ^ 2 =
      (near - far) * (2 * quotient - (near + far)) := by ring
  rw [← sq_eq_sq_iff_abs_eq_abs, ← squares, sub_eq_zero, eq_comm]

theorem signed_signed (number : Double) (quotient : ℚ) :
    number.signed (number.signed quotient) = quotient := by
  unfold signed
  split_ifs
  · exact neg_neg quotient
  · rfl

theorem abs_signed_sub_signed (number : Double) (left right : ℚ) :
    |number.signed left - number.signed right| = |left - right| := by
  unfold signed
  split_ifs
  · rw [← neg_sub', abs_neg]
  · rfl

theorem value_of_neighbour (next : number.Neighbour other) :
    other.value = number.signed other.magnitude := by
  rw [value, signed, signed, next.sign]

theorem magnitude_congr (same : number.magnitudeBits = other.magnitudeBits) :
    number.magnitude = other.magnitude := by
  have hidden := fun above => other.hiddenBit_le_significand above
  have lowest := other.scale_ge
  obtain ⟨scale, significand⟩ := parts_eq (same.trans other.magnitudeBits_eq)
    other.significand_lt (by omega)
  have sameScale : number.scale = other.scale := by omega
  rw [magnitude, magnitude, sameScale, significand]

/-- Seen from the sign of a double other than zero, every double is the same, or far enough
above, or far enough below. -/
theorem position (nonzero : 0 < number.significand) (other : Double) :
    number.signed other.value = number.magnitude ∨
      number.magnitude + 2 ^ number.scale ≤ number.signed other.value ∨
      number.signed other.value < number.magnitude ∧
        number.magnitude + number.signed other.value ≤ 2 * (number.lowerEnd * number.quarter) := by
  by_cases sign : other.isNegative = number.isNegative
  · have seen : number.signed other.value = other.magnitude := by
      have own : other.value = number.signed other.magnitude := by
        rw [value, signed, signed, sign]
      rw [own, signed_signed]
    rw [seen]
    rcases lt_trichotomy other.magnitudeBits number.magnitudeBits with less | same | more
    · have gap := magnitude_add_le less
      have unit := other.two_pow_scale_pos
      exact .inr (.inr ⟨by linarith, magnitude_add_magnitude_le nonzero less⟩)
    · exact .inl (magnitude_congr same)
    · exact .inr (.inl (magnitude_add_le more))
  · have seen : number.signed other.value = -other.magnitude := by
      rw [value, signed, signed]
      cases own : number.isNegative <;> cases opposite : other.isNegative
      case true.false | false.true => simp
      all_goals exact absurd (opposite.trans own.symm) sign
    have positive := magnitude_pos nonzero
    have notNegative := other.magnitude_nonneg
    have least := mul_le_mul_of_nonneg_right (le_lowerEnd nonzero) number.quarter_pos.le
    have one : (1 : ℚ) ≤ number.significand := by exact_mod_cast nonzero
    have own : number.magnitude = 4 * number.significand * number.quarter := by
      rw [magnitude, quarter_eq]
      ring
    have quarter := number.quarter_pos
    -- what has the other sign is below zero, and the interval ends above half the magnitude
    refine .inr (.inr ⟨by linarith, ?_⟩)
    rw [seen]
    nlinarith

/-- What is in the rounding interval of a double other than zero rounds to it. -/
theorem roundsTo_of_owns (nonzero : 0 < number.significand) (owns : number.Owns quotient) :
    RoundsTo (number.signed quotient) number := by
  have upper := number.two_mul_upper
  have unit := number.two_pow_scale_pos
  have atLeast := owns.atLeast
  have atMost := owns.atMost
  have distance : ∀ other : Double, |number.signed quotient - other.value| =
      |quotient - number.signed other.value| := by
    intro other
    rw [← abs_signed_sub_signed number, signed_signed]
  have own : number.signed number.value = number.magnitude := number.signed_signed _
  constructor
  · intro other _
    rw [distance, distance, own, abs_sub_le_abs_sub_iff]
    rcases position nonzero other with same | above | ⟨below, middle⟩
    · rw [same, sub_self, zero_mul]
    · exact mul_nonneg_of_nonpos_of_nonpos (by linarith) (by linarith)
    · exact mul_nonneg (by linarith) (by linarith)
  · intro other _ differs equally
    rw [distance, distance, own, abs_sub_eq_abs_sub_iff] at equally
    have distinct : number.magnitude ≠ number.signed other.value := fun same =>
      differs (by rw [← signed_signed number other.value, ← same, value])
    have middle := (mul_eq_zero.1 equally).resolve_left (sub_ne_zero.2 distinct)
    rcases Nat.mod_two_eq_zero_or_one number.significand with even | odd
    · exact even
    · obtain ⟨more, less⟩ := owns.within odd
      rcases position nonzero other with same | above | ⟨below, ends⟩
      · exact absurd same.symm distinct
      · linarith
      · linarith

/-- What rounds to a finite double other than zero is in its rounding interval: it is not
nearer to either neighbour. -/
theorem owns_of_roundsTo (finite : number.isFinite = true) (nonzero : 0 < number.significand)
    (rounds : RoundsTo (number.signed quotient) number) : number.Owns quotient := by
  have upper := number.two_mul_upper
  have unit := number.two_pow_scale_pos
  obtain ⟨above, nextAbove, up⟩ := exists_above finite
  obtain ⟨below, nextBelow, down, middle⟩ := exists_below finite nonzero
  have notAbove := rounds.nearest above nextAbove.isNumber
  have notBelow := rounds.nearest below nextBelow.isNumber
  have tieAbove := rounds.tie above nextAbove.isNumber
  have tieBelow := rounds.tie below nextBelow.isNumber
  have differs : ∀ {left right : ℚ}, left ≠ right -> number.signed left ≠ number.signed right :=
    fun {left right} distinct same =>
      distinct (by rw [← signed_signed number left, same, signed_signed])
  have own : number.value = number.signed number.magnitude := rfl
  rw [own, value_of_neighbour nextAbove, abs_signed_sub_signed, abs_signed_sub_signed]
    at notAbove tieAbove
  rw [own, value_of_neighbour nextBelow, abs_signed_sub_signed, abs_signed_sub_signed]
    at notBelow tieBelow
  rw [abs_sub_le_abs_sub_iff] at notAbove notBelow
  rw [abs_sub_eq_abs_sub_iff] at tieAbove tieBelow
  have atMost : 2 * quotient ≤ number.magnitude + above.magnitude := by
    have := nonneg_of_mul_nonneg_right
      (show 0 ≤ (above.magnitude - number.magnitude) *
        (number.magnitude + above.magnitude - 2 * quotient) by linarith) (by linarith)
    linarith
  have atLeast : number.magnitude + below.magnitude ≤ 2 * quotient := by
    have := nonneg_of_mul_nonneg_right notBelow (by linarith)
    linarith
  refine ⟨by linarith, by linarith, fun odd => ?_⟩
  constructor
  · refine lt_of_le_of_ne (by linarith) fun same => ?_
    have even := tieBelow (differs down.ne) (by rw [← same, middle]; ring)
    omega
  · refine lt_of_le_of_ne (by linarith) fun same => ?_
    have even := tieAbove (differs (by linarith)) (by
      have between : 2 * quotient - (number.magnitude + above.magnitude) = 0 := by linarith
      rw [between, mul_zero])
    omega

/-- Exactly the quotients of its rounding interval round to a finite double other than
zero. -/
theorem roundsTo_signed_iff (finite : number.isFinite = true) (nonzero : 0 < number.significand) :
    RoundsTo (number.signed quotient) number ↔ number.Owns quotient :=
  ⟨owns_of_roundsTo finite nonzero, roundsTo_of_owns nonzero⟩

end Rounding

end ScriptConsole.Double
