import ScriptConsole.Proofs.Decimal.Shortest
import ScriptConsole.Proofs.Double.Value

/-!
# No decimal is shorter

The search takes the first grid with a point in the rounding interval, and every grid it
passes over has none: `not_owns_of_coarser`. A decimal with fewer digits than the one found
would have a power of ten between itself and the found one, which is a point of a grid that
was passed over.
-/

namespace ScriptConsole

namespace Sighting

/-- If no point is taken, neither neighbour is in the interval. -/
theorem contains_eq_false_of_nearest? {tie : Tie} {sighting : Sighting}
    (missed : sighting.nearest? tie = none) :
    sighting.contains (sighting.value / sighting.step) = false ∧
      sighting.contains (sighting.value / sighting.step + 1) = false := by
  unfold nearest? at missed
  simp only at missed
  split at missed
  · split_ifs at missed
  · cases missed
  · cases missed
  · next below above => exact ⟨below, above⟩

end Sighting

namespace Double

variable {number : Double} {tie : Tie} {place : ℤ}

/-! ## Rounding intervals -/

/-- The rounding interval has no gaps. -/
theorem Owns.between {low high quotient : ℚ} (first : number.Owns low) (last : number.Owns high)
    (atLeast : low ≤ quotient) (atMost : quotient ≤ high) : number.Owns quotient where
  atLeast := first.atLeast.trans atLeast
  atMost := atMost.trans last.atMost
  within := fun odd =>
    ⟨(first.within odd).1.trans_le atLeast, atMost.trans_lt (last.within odd).2⟩

theorem magnitude_eq_quarters (number : Double) :
    number.magnitude = (4 * number.significand : ℕ) * number.quarter := by
  rw [magnitude, quarter_eq]
  push_cast
  ring

/-- A double rounds to itself. -/
theorem owns_magnitude (nonzero : 0 < number.significand) : number.Owns number.magnitude := by
  have quarter := number.quarter_pos
  have low := lowerEnd_lt nonzero
  have high := number.lt_upperEnd
  have above : number.lowerEnd * number.quarter < number.magnitude := by
    rw [magnitude_eq_quarters]
    gcongr
  have below : number.magnitude < number.upperEnd * number.quarter := by
    rw [magnitude_eq_quarters]
    gcongr
  exact ⟨above.le, below.le, fun _ => ⟨above, below⟩⟩

/-- Of the whole numbers only the double's own value rounds to it, if the last place is no
whole number. -/
theorem eq_magnitude_of_owns {whole : ℕ} (nonzero : 0 < number.significand)
    (fine : number.scale < 0) (owns : number.Owns whole) : (whole : ℚ) = number.magnitude := by
  obtain ⟨low, high, -⟩ := owns.near nonzero
  have counted : (whole : ℚ) / 2 ^ number.scale = (whole * 2 ^ (-number.scale).toNat : ℕ) := by
    have noPlaces : number.scale.toNat = 0 := by omega
    rw [zpow_eq_div 2, noPlaces, pow_zero, div_div_eq_mul_div, div_one]
    push_cast
    rfl
  rw [counted] at low high
  have same : whole * 2 ^ (-number.scale).toNat = number.significand := by
    have less : number.significand < whole * 2 ^ (-number.scale).toNat + 1 := by
      have : (number.significand : ℚ) < (whole * 2 ^ (-number.scale).toNat : ℕ) + 1 := by linarith
      exact_mod_cast this
    have more : whole * 2 ^ (-number.scale).toNat < number.significand + 1 := by
      have : ((whole * 2 ^ (-number.scale).toNat : ℕ) : ℚ) < number.significand + 1 := by linarith
      exact_mod_cast this
    omega
  rw [same, div_eq_iff number.two_pow_scale_pos.ne'] at counted
  exact counted

/-! ## Grids without a point -/

/-- A grid point is found in the interval exactly if it is there. -/
theorem contains_iff {index : ℕ} :
    (number.sight place).contains index = true ↔ number.Owns (index * 10 ^ place) := by
  refine ⟨owns_of_contains, fun owns => ?_⟩
  unfold Sighting.contains
  simp only
  split
  · simp only [Bool.and_eq_true, decide_eq_true_eq]
    exact ⟨(number.units_le_steps_iff place).2 owns.atLeast,
      (number.steps_le_units_iff place).2 owns.atMost⟩
  · next isOpen =>
    have odd : number.significand % 2 = 1 := by
      have : number.significand % 2 ≠ 0 := by simpa [sight] using isOpen
      omega
    obtain ⟨above, below⟩ := owns.within odd
    simp only [Bool.and_eq_true, decide_eq_true_eq]
    exact ⟨not_le.1 (mt (number.steps_le_units_iff place).1 (not_le.2 above)),
      not_le.1 (mt (number.units_le_steps_iff place).1 (not_le.2 below))⟩

/-- The two points that are looked at are the neighbours of the double on the grid. -/
theorem grid_brackets_magnitude (number : Double) (place : ℤ) :
    ∃ below : ℕ, below = (number.sight place).value / (number.sight place).step ∧
      (below : ℚ) * 10 ^ place ≤ number.magnitude ∧
      number.magnitude ≤ (below + 1 : ℕ) * 10 ^ place := by
  refine ⟨_, rfl, ?_, ?_⟩
  · rw [magnitude_eq_quarters]
    exact (number.steps_le_units_iff place).1 (Nat.div_mul_le_self _ _)
  · have step : 0 < (number.sight place).step :=
      Nat.mul_pos (Nat.pow_pos two_pos) Decimal.ten_pow_pos
    rw [magnitude_eq_quarters]
    refine (number.units_le_steps_iff place).1 ?_
    exact (Nat.lt_mul_of_div_lt (Nat.lt_succ_self _) step).le

/-- If neither neighbour on the grid is in the interval, no other point of the grid is. -/
theorem not_owns_of_nearest? (nonzero : 0 < number.significand)
    (missed : (number.sight place).nearest? tie = none) (index : ℕ) :
    ¬number.Owns (index * 10 ^ place) := by
  intro owns
  obtain ⟨notBelow, notAbove⟩ := Sighting.contains_eq_false_of_nearest? missed
  obtain ⟨below, isBelow, low, high⟩ := number.grid_brackets_magnitude place
  rw [← isBelow, ← Bool.not_eq_true, contains_iff] at notBelow notAbove
  have unit : (0 : ℚ) < 10 ^ place := zpow_pos (by norm_num) _
  have itself := owns_magnitude nonzero
  rcases Nat.lt_or_ge below index with after | before
  · refine notAbove (itself.between owns high ?_)
    gcongr
    exact after
  · refine notBelow (owns.between itself ?_ low)
    gcongr

/-! ## The coarsest grid -/

theorem two_pow_le_ten_pow_coarsestPlace (number : Double) :
    (2 : ℚ) ^ ((number.significand.log2 : ℤ) + 1 + number.scale) ≤ 10 ^ number.coarsestPlace := by
  unfold coarsestPlace
  extract_lets bitCount
  split_ifs with large
  · set thirds := ((bitCount + 2) / 3).toNat with isThirds
    have place : (bitCount + 2) / 3 = thirds := by omega
    calc (2 : ℚ) ^ bitCount ≤ 2 ^ ((3 * thirds : ℕ) : ℤ) :=
          zpow_le_zpow_right₀ one_le_two (by omega)
      _ = 8 ^ thirds := by
          rw [zpow_natCast, pow_mul]
          norm_num
      _ ≤ 10 ^ thirds := by
          gcongr
          norm_num
      _ = 10 ^ ((bitCount + 2) / 3) := by rw [place, zpow_natCast]
  · set tenths := (-bitCount * 3 / 10).toNat with isTenths
    set bits := (-bitCount).toNat with isBits
    have place : -(-bitCount * 3 / 10) = -(tenths : ℤ) := by omega
    have count : bitCount = -(bits : ℤ) := by omega
    have cubes : (10 ^ tenths) ^ 3 ≤ (2 ^ bits) ^ 3 := by
      calc (10 ^ tenths) ^ 3 = 1000 ^ tenths := by
            rw [← pow_mul, mul_comm, pow_mul]
            norm_num
        _ ≤ 1024 ^ tenths := Nat.pow_le_pow_left (by norm_num) _
        _ = 2 ^ (10 * tenths) := by
            rw [pow_mul]
            norm_num
        _ ≤ 2 ^ (bits * 3) := Nat.pow_le_pow_right two_pos (by omega)
        _ = (2 ^ bits) ^ 3 := pow_mul _ _ _
    have powers : 10 ^ tenths ≤ 2 ^ bits := (Nat.pow_le_pow_iff_left (by norm_num)).1 cubes
    change (2 : ℚ) ^ bitCount ≤ _
    rw [place, count, zpow_neg, zpow_neg, zpow_natCast, zpow_natCast]
    refine inv_anti₀ (by positivity) ?_
    exact_mod_cast powers

/-- The whole interval is below the first point of the coarsest grid. -/
theorem upperEnd_lt_ten_pow_coarsestPlace (number : Double) :
    number.upperEnd * number.quarter < 10 ^ number.coarsestPlace := by
  refine lt_of_lt_of_le ?_ number.two_pow_le_ten_pow_coarsestPlace
  have unit := number.two_pow_scale_pos
  have bits : (number.significand : ℚ) + 1 ≤ 2 ^ (number.significand.log2 + 1) := by
    exact_mod_cast (Nat.lt_log2_self : number.significand < _)
  have power : (2 : ℚ) ^ ((number.significand.log2 : ℤ) + 1 + number.scale) =
      2 ^ (number.significand.log2 + 1) * 2 ^ number.scale := by
    rw [zpow_add₀ two_ne_zero, ← zpow_natCast]
    push_cast
    rfl
  have ends := number.two_mul_upper
  rw [magnitude] at ends
  rw [power]
  nlinarith

/-- From the coarsest grid on no grid has a point in the interval. -/
theorem not_owns_of_coarsestPlace_le (nonzero : 0 < number.significand)
    (coarse : number.coarsestPlace ≤ place) (index : ℕ) : ¬number.Owns (index * 10 ^ place) := by
  intro owns
  have positive := owns.pos nonzero
  have ends := number.upperEnd_lt_ten_pow_coarsestPlace
  have one : (1 : ℚ) ≤ index := by
    have : index ≠ 0 := by
      rintro rfl
      simp at positive
    exact_mod_cast Nat.one_le_iff_ne_zero.2 this
  have first : (10 : ℚ) ^ number.coarsestPlace ≤ index * 10 ^ place := by
    calc (10 : ℚ) ^ number.coarsestPlace ≤ 1 * 10 ^ place := by
          rw [one_mul]
          exact zpow_le_zpow_right₀ (by norm_num) coarse
      _ ≤ index * 10 ^ place := by gcongr
  exact absurd owns.atMost (not_le.2 (ends.trans_le first))

/-! ## The search -/

/-- What the search passes over are grids without a point in the interval. -/
theorem not_owns_of_searchPlaces (nonzero : 0 < number.significand) (remaining : ℕ) {coarser : ℤ}
    (above : (number.searchPlaces tie remaining place).exponent < coarser)
    (passed : coarser ≤ place) (index : ℕ) : ¬number.Owns (index * 10 ^ coarser) := by
  induction remaining generalizing place with
  | zero => exact absurd (above.trans_le passed) (lt_irrefl _)
  | succ remaining ih =>
    unfold searchPlaces at above
    split at above
    · exact absurd (above.trans_le passed) (lt_irrefl _)
    · next missed =>
      rcases passed.eq_or_lt with rfl | less
      · exact not_owns_of_nearest? nonzero missed index
      · exact ih above (by omega)

/-- No grid coarser than that of the shortest decimal has a point in the interval. -/
theorem not_owns_of_coarser (nonzero : 0 < number.significand)
    (coarser : (number.shortest tie).exponent < place) (index : ℕ) :
    ¬number.Owns (index * 10 ^ place) := by
  rcases le_total place number.coarsestPlace with passed | beyond
  · exact not_owns_of_searchPlaces nonzero _ coarser passed index
  · exact not_owns_of_coarsestPlace_le nonzero beyond index

theorem le_exponent_searchPlaces (number : Double) (tie : Tie) (remaining : ℕ) (place : ℤ) :
    place - remaining ≤ (number.searchPlaces tie remaining place).exponent := by
  induction remaining generalizing place with
  | zero => simp [searchPlaces]
  | succ remaining ih =>
    unfold searchPlaces
    split
    · push_cast
      omega
    · have := ih (place - 1)
      push_cast
      omega

theorem exactPlace_le_coarsestPlace (number : Double) :
    number.exactPlace ≤ number.coarsestPlace := by
  unfold exactPlace coarsestPlace
  extract_lets bitCount
  split_ifs <;> omega

/-- The search goes no farther than to the grid of the double itself. -/
theorem exactPlace_le_exponent (number : Double) (tie : Tie) :
    number.exactPlace ≤ (number.shortest tie).exponent := by
  have last := le_exponent_searchPlaces number tie
    (number.coarsestPlace - number.exactPlace).toNat number.coarsestPlace
  have order := number.exactPlace_le_coarsestPlace
  unfold shortest
  omega

/-! ## Digits -/

/-- The shortest decimal of a double other than zero is not zero. -/
theorem coefficient_shortest_pos (nonzero : 0 < number.significand) (tie : Tie) :
    0 < (number.shortest tie).coefficient :=
  Decimal.coefficient_pos_of_owns nonzero (owns_shortest nonzero tie)

/-- A decimal whose last digit is a zero is a point of a coarser grid. -/
theorem coefficient_shortest_mod_ten (nonzero : 0 < number.significand) (tie : Tie) :
    (number.shortest tie).coefficient % 10 ≠ 0 := by
  intro zero
  have owns := owns_shortest nonzero tie
  refine not_owns_of_coarser nonzero (lt_add_one (number.shortest tie).exponent)
    ((number.shortest tie).coefficient / 10) ?_
  have tenths : (((number.shortest tie).coefficient / 10 : ℕ) : ℚ) * 10 =
      (number.shortest tie).coefficient := by
    exact_mod_cast Nat.div_mul_cancel (Nat.dvd_of_mod_eq_zero zero)
  have same : (((number.shortest tie).coefficient / 10 : ℕ) : ℚ) *
      10 ^ ((number.shortest tie).exponent + 1) = (number.shortest tie).value := by
    rw [zpow_add_one₀ (by norm_num), Decimal.value, ← tenths]
    ring
  rwa [same]

end Double

namespace Decimal

/-- A decimal other than zero is at least the power of ten of its leading digit. -/
theorem le_value {decimal : Decimal} (positive : 0 < decimal.coefficient) :
    (10 : ℚ) ^ ((decimal.digits.length : ℤ) - 1 + decimal.exponent) ≤ decimal.value := by
  have digits : 1 ≤ decimal.digits.length := Nat.length_toDigits_pos
  have least : 10 ^ (decimal.digits.length - 1) ≤ decimal.coefficient := by
    by_contra less
    rcases Nat.eq_zero_or_pos (decimal.digits.length - 1) with none | some
    · rw [none] at less
      omega
    · have := (Nat.length_toDigits_le_iff (by norm_num) some).2 (not_le.1 less)
      simp only [Decimal.digits] at *
      omega
  have others : (decimal.digits.length : ℤ) - 1 = (decimal.digits.length - 1 : ℕ) := by omega
  have power : (10 : ℚ) ^ ((decimal.digits.length : ℤ) - 1) =
      (10 ^ (decimal.digits.length - 1) : ℕ) := by
    rw [others, zpow_natCast]
    push_cast
    rfl
  rw [zpow_add₀ (by norm_num), power, value]
  gcongr

end Decimal

namespace Double

variable {number : Double} {tie : Tie}

/-- No decimal that rounds to a double other than zero has fewer digits than the shortest
one. -/
theorem length_digits_shortest_le (nonzero : 0 < number.significand) (tie : Tie) {other : Decimal}
    (owns : number.Owns other.value) :
    (number.shortest tie).digits.length ≤ other.digits.length := by
  by_contra! fewer
  have own := owns_shortest nonzero tie
  have some : 1 ≤ other.digits.length := Nat.length_toDigits_pos
  -- a coarser grid than the one found has no point to offer
  have fine : other.exponent ≤ (number.shortest tie).exponent := by
    by_contra! coarser
    exact not_owns_of_coarser nonzero coarser other.coefficient owns
  set power := ((number.shortest tie).digits.length : ℤ) - 1 + (number.shortest tie).exponent
    with isPower
  have above : other.value ≤ 10 ^ power :=
    other.value_lt.le.trans (zpow_le_zpow_right₀ (by norm_num) (by omega))
  have below := Decimal.le_value (coefficient_shortest_pos nonzero tie)
  have between : number.Owns ((1 : ℕ) * 10 ^ power) := by
    rw [Nat.cast_one, one_mul]
    exact owns.between own above below
  have coarser : (number.shortest tie).exponent < power := by omega
  exact not_owns_of_coarser nonzero coarser 1 between

end Double

end ScriptConsole
