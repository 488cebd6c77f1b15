import GraphQLModels.Number.Shortest
import GraphQLModels.Proofs.Rounding

/-!
# The shortest decimal reads back

A decimal is rounded by its value alone, however many zeros its digits end in. Seventeen digits
always come near enough to a binary number to be rounded to it, so the search for the fewest digits
ends, and what it finds reads back as the number.
-/

namespace GraphQLModels.Number.Binary64

/-! ## Digits -/

theorem digitCount_pos (n : Nat) : 0 < digitCount n := Nat.length_toDigits_pos

theorem digitCount_le_iff (n count : Nat) (count_pos : 0 < count) :
    digitCount n ≤ count ↔ n < 10 ^ count :=
  Nat.length_toDigits_le_iff (by norm_num) count_pos

theorem lt_pow_digitCount (n : Nat) : n < 10 ^ digitCount n :=
  (digitCount_le_iff n _ (digitCount_pos n)).mp le_rfl

theorem pow_le_of_lt_digitCount (n count : Nat) (n_pos : 0 < n) (more : count < digitCount n) :
    10 ^ count ≤ n := by
  rcases Nat.eq_zero_or_pos count with none | count_pos
  · rw [none]
    exact n_pos
  · by_contra less
    have := (digitCount_le_iff n count count_pos).mpr (by omega)
    omega

theorem pow_pred_digitCount_le (n : Nat) (n_pos : 0 < n) : 10 ^ (digitCount n - 1) ≤ n :=
  pow_le_of_lt_digitCount n _ n_pos (by have := digitCount_pos n; omega)

/-- The count of digits is told by the powers of ten around a number. -/
theorem digitCount_eq (n count : Nat) (low : 10 ^ count ≤ n) (high : n < 10 ^ (count + 1)) :
    digitCount n = count + 1 := by
  have at_most := (digitCount_le_iff n (count + 1) (by omega)).mpr high
  by_contra different
  rcases Nat.eq_zero_or_pos count with none | count_pos
  · have := digitCount_pos n
    omega
  · have := (digitCount_le_iff n count count_pos).mp (by omega)
    omega

theorem digitCount_mul_pow (n k : Nat) (n_pos : 0 < n) :
    digitCount (n * 10 ^ k) = digitCount n + k := by
  have low := pow_pred_digitCount_le n n_pos
  have high := lt_pow_digitCount n
  have count_pos := digitCount_pos n
  have shifted := digitCount_eq (n * 10 ^ k) (digitCount n - 1 + k)
    (by rw [pow_add]; exact Nat.mul_le_mul_right _ low)
    (by
      rw [show digitCount n - 1 + k + 1 = digitCount n + k by omega, pow_add]
      exact Nat.mul_lt_mul_of_pos_right high (by positivity))
  omega

/-! ## Decimals -/

/-- A decimal whose order of magnitude is that of some finite number is rounded as a quotient. -/
theorem ofDecimal_eq_ofQuotient (negative : Bool) (digits : Nat) (exponent : Int)
    (digits_pos : 0 < digits) (least : -330 ≤ (digitCount digits : Int) + exponent)
    (greatest : (digitCount digits : Int) + exponent ≤ 310) :
    ∃ num den : Nat, 0 < den ∧ (num : ℚ) / den = digits * 10 ^ exponent ∧
      ofDecimal negative digits exponent = ofQuotient negative num den := by
  unfold ofDecimal
  have present : ¬(decide (digits = 0) ||
      decide ((digitCount digits : Int) + exponent < -330)) = true := by
    simp only [Bool.or_eq_true, decide_eq_true_iff]
    omega
  simp only [if_neg present, gt_iff_lt, if_neg (not_lt.mpr greatest)]
  by_cases nonneg : 0 ≤ exponent
  · refine ⟨digits * 10 ^ exponent.toNat, 1, one_pos, ?_, if_pos nonneg⟩
    have power := zpow_toNat 10 exponent nonneg
    push_cast at power ⊢
    rw [power, div_one]
  · refine ⟨digits, 10 ^ (-exponent).toNat, by positivity, ?_, if_neg nonneg⟩
    have power := zpow_neg_toNat 10 exponent (by omega)
    push_cast at power ⊢
    rw [power, div_eq_mul_inv]

/-- Zeros at the end of the digits do not change what a decimal is rounded to. -/
theorem ofDecimal_mul_pow (negative : Bool) (digits k : Nat) (exponent : Int) :
    ofDecimal negative (digits * 10 ^ k) exponent = ofDecimal negative digits (exponent + k) := by
  rcases Nat.eq_zero_or_pos digits with none | digits_pos
  · rw [none, Nat.zero_mul]
    rfl
  · have shifted_pos : 0 < digits * 10 ^ k := by positivity
    have order : (digitCount (digits * 10 ^ k) : Int) + exponent =
        digitCount digits + (exponent + k) := by
      rw [digitCount_mul_pow digits k digits_pos]
      push_cast
      ring
    by_cases small : (digitCount digits : Int) + (exponent + k) < -330
    · simp [ofDecimal, order, small]
    · by_cases large : 310 < (digitCount digits : Int) + (exponent + k)
      · simp [ofDecimal, order, small, large, digits_pos.ne']
      · obtain ⟨num, den, den_pos, value, rounded⟩ := ofDecimal_eq_ofQuotient negative
          (digits * 10 ^ k) exponent shifted_pos (by omega) (by omega)
        obtain ⟨num', den', den_pos', value', rounded'⟩ := ofDecimal_eq_ofQuotient negative
          digits (exponent + k) digits_pos (by omega) (by omega)
        rw [rounded, rounded']
        apply ofQuotient_congr negative num den num' den' den_pos den_pos'
        rw [value, value', zpow_add₀ (by norm_num), zpow_natCast]
        push_cast
        ring

theorem ofDecimal_isCanonical (negative : Bool) (digits : Nat) (exponent : Int) :
    (ofDecimal negative digits exponent).IsCanonical := by
  unfold ofDecimal
  dsimp only
  split
  · exact ⟨by norm_num, le_rfl, by decide, .inr rfl⟩
  · split
    · trivial
    · split
      · exact ofQuotient_isCanonical negative _ _ one_pos
      · exact ofQuotient_isCanonical negative _ _ (Nat.pow_pos (by decide))

/-! ## The sign -/

/-- The number under another sign. -/
def signed (negative : Bool) : Binary64 → Binary64
  | .finite _ mantissa exponent => .finite negative mantissa exponent
  | .infinite _ => .infinite negative
  | .nan => .nan

theorem ofQuotient_signed (negative : Bool) (num den : Nat) :
    ofQuotient negative num den = (ofQuotient false num den).signed negative := by
  unfold ofQuotient
  by_cases none : num = 0
  · simp only [if_pos none]
    rfl
  · simp only [if_neg none]
    rw [apply_ite (signed negative)]
    rfl

theorem ofDecimal_signed (negative : Bool) (digits : Nat) (exponent : Int) :
    ofDecimal negative digits exponent = (ofDecimal false digits exponent).signed negative := by
  unfold ofDecimal
  simp only [ofQuotient_signed negative]
  split
  · rfl
  · split
    · rfl
    · split <;> rfl

/-! ## The decimal order -/

/-- The test by which a quotient is compared with a power of ten. -/
theorem below_iff (num den : Nat) (k : Int) (den_pos : 0 < den) :
    (if k - 1 ≥ 0 then decide (num < den * 10 ^ (k - 1).toNat)
      else decide (num * 10 ^ (1 - k).toNat < den)) = true ↔ (num : ℚ) / den < 10 ^ (k - 1) := by
  have den_pos' : (0 : ℚ) < den := by exact_mod_cast den_pos
  rw [div_lt_iff₀ den_pos']
  by_cases nonneg : 0 ≤ k - 1
  · have power := zpow_toNat 10 (k - 1) nonneg
    rw [if_pos nonneg, decide_eq_true_iff]
    push_cast at power
    rw [power, mul_comm]
    exact_mod_cast Iff.rfl
  · have power := zpow_neg_toNat 10 (k - 1) (by omega)
    rw [if_neg nonneg, decide_eq_true_iff, show 1 - k = -(k - 1) by ring]
    push_cast at power
    rw [power, inv_mul_eq_div, lt_div_iff₀ (by positivity)]
    exact_mod_cast Iff.rfl

/-- The search for the decimal order ends at it, given enough steps. -/
theorem decimalOrder_spec (num den : Nat) (den_pos : 0 < den) (fuel : Nat) (k : Int)
    (high : (num : ℚ) / den < 10 ^ k) (low : (10 : ℚ) ^ (k - 1 - fuel) ≤ num / den) :
    (10 : ℚ) ^ (decimalOrder num den fuel k - 1) ≤ num / den ∧
      (num : ℚ) / den < 10 ^ decimalOrder num den fuel k := by
  induction fuel generalizing k with
  | zero =>
    rw [decimalOrder]
    exact ⟨by simpa using low, high⟩
  | succ fuel ih =>
    simp only [decimalOrder, Nat.pow_eq]
    by_cases below : (num : ℚ) / den < 10 ^ (k - 1)
    · rw [if_pos ((below_iff num den k den_pos).mpr below)]
      apply ih (k - 1) below
      have same : k - 1 - 1 - (fuel : Int) = k - 1 - (fuel + 1 : Nat) := by
        push_cast
        ring
      rw [same]
      exact low
    · rw [if_neg fun test => below ((below_iff num den k den_pos).mp test)]
      exact ⟨not_lt.mp below, high⟩

/-- The powers of ten around a quotient that the counts of digits give. -/
theorem digitCounts_bounds (num den : Nat) (num_pos : 0 < num) (den_pos : 0 < den) :
    (10 : ℚ) ^ ((digitCount num : Int) - digitCount den - 1) ≤ num / den ∧
      (num : ℚ) / den < 10 ^ ((digitCount num : Int) - digitCount den + 1) := by
  have den_pos' : (0 : ℚ) < den := by exact_mod_cast den_pos
  have num_low : ((10 ^ (digitCount num - 1) : Nat) : ℚ) ≤ num := by
    exact_mod_cast pow_pred_digitCount_le num num_pos
  have num_high : (num : ℚ) < (10 ^ digitCount num : Nat) := by
    exact_mod_cast lt_pow_digitCount num
  have den_low : ((10 ^ (digitCount den - 1) : Nat) : ℚ) ≤ den := by
    exact_mod_cast pow_pred_digitCount_le den den_pos
  have den_high : (den : ℚ) < (10 ^ digitCount den : Nat) := by
    exact_mod_cast lt_pow_digitCount den
  have count_pos := digitCount_pos num
  have count_pos' := digitCount_pos den
  push_cast at num_low num_high den_low den_high
  rw [← zpow_natCast] at num_low num_high den_low den_high
  -- The least numerator stands over the greatest denominator, and the other way round.
  constructor
  · rw [le_div_iff₀ den_pos']
    calc (10 : ℚ) ^ ((digitCount num : Int) - digitCount den - 1) * den
        ≤ 10 ^ ((digitCount num : Int) - digitCount den - 1) * 10 ^ (digitCount den : Int) := by
          gcongr
      _ = 10 ^ ((digitCount num - 1 : Nat) : Int) := by
          rw [← zpow_add₀ (by norm_num)]
          congr 1
          omega
      _ ≤ num := num_low
  · rw [div_lt_iff₀ den_pos']
    calc (num : ℚ) < 10 ^ (digitCount num : Int) := num_high
      _ = 10 ^ ((digitCount num : Int) - digitCount den + 1) *
            10 ^ ((digitCount den - 1 : Nat) : Int) := by
          rw [← zpow_add₀ (by norm_num)]
          congr 1
          omega
      _ ≤ 10 ^ ((digitCount num : Int) - digitCount den + 1) * den := by gcongr

/-! ## The search for the fewest digits -/

/-- One of the neighbours of a quotient on a grid is no farther from it than half a step. -/
theorem exists_near_neighbour (num den : Nat) (exponent : Int) (den_pos : 0 < den) :
    ∃ n ∈ gridNeighbours num den exponent,
      |(num : ℚ) / den - n * 10 ^ exponent| ≤ 10 ^ exponent / 2 := by
  have step_pos : (0 : ℚ) < 10 ^ exponent := by positivity
  have scaled := scaled_quotient 10 num den exponent
  -- Counted in steps of the grid the quotient is again one of natural numbers, and what rounding
  -- makes of that is one of the neighbours.
  obtain ⟨a, b, b_pos, steps, pair⟩ : ∃ a b : Nat, 0 < b ∧
      (a : ℚ) / b = num / den / 10 ^ exponent ∧
      (if exponent ≥ 0 then (num, den * 10 ^ exponent.toNat)
        else (num * 10 ^ (-exponent).toNat, den)) = (a, b) := by
    by_cases nonneg : 0 ≤ exponent
    · exact ⟨_, _, by positivity, by exact_mod_cast scaled.1 nonneg, if_pos nonneg⟩
    · exact ⟨_, _, den_pos, by exact_mod_cast scaled.2 (by omega), if_neg nonneg⟩
  refine ⟨roundQuotient a b, ?_, ?_⟩
  · simp only [gridNeighbours, Nat.pow_eq, pair]
    have rounded := roundQuotient_cases a b b_pos
    split
    · have : roundQuotient a b = a / b := by omega
      simp [this]
    · split
      · rcases rounded with ⟨equal, _⟩ | ⟨equal, _⟩ <;> simp [equal]
      · rcases rounded with ⟨equal, _⟩ | ⟨equal, _⟩ <;> simp [equal]
  · have near := abs_roundQuotient_sub_le a b b_pos
    rw [steps] at near
    have counted : (num : ℚ) / den - roundQuotient a b * 10 ^ exponent =
        (num / den / 10 ^ exponent - roundQuotient a b) * 10 ^ exponent := by
      rw [sub_mul, div_mul_cancel₀ _ step_pos.ne']
    rw [counted, abs_mul, abs_of_pos step_pos]
    have := mul_le_mul_of_nonneg_right near step_pos.le
    linarith

/-- What the search finds reads back. -/
theorem shortestFrom_some (target : Binary64) (num den : Nat) (order : Int) (fuel count : Nat)
    (d : Decimal10) (found : shortestFrom target num den order fuel count = some d) :
    ofDecimal false d.digits d.exponent = target := by
  induction fuel generalizing count with
  | zero => simp [shortestFrom] at found
  | succ fuel ih =>
    rw [shortestFrom] at found
    split at found
    · rename_i n chosen
      cases found
      simpa using List.find?_some chosen
    · exact ih (count + 1) found

/-- The search finds something if one of the counts it tries has a neighbour that reads back. -/
theorem shortestFrom_isSome (target : Binary64) (num den : Nat) (order : Int) (fuel count last : Nat)
    (from_count : count ≤ last) (tried : last < count + fuel) (n : Nat)
    (neighbour : n ∈ gridNeighbours num den (order - last))
    (reads : ofDecimal false n (order - last) = target) :
    (shortestFrom target num den order fuel count).isSome := by
  induction fuel generalizing count with
  | zero => omega
  | succ fuel ih =>
    rw [shortestFrom]
    split
    · rfl
    · rename_i nothing
      have later : count ≠ last := by
        rintro rfl
        have := List.find?_eq_none.mp nothing n neighbour
        simp [reads] at this
      exact ih (count + 1) (by omega) (by omega)

theorem quotient_spec (mantissa : Nat) (exponent : Int) :
    0 < (quotient mantissa exponent).2 ∧
      ((quotient mantissa exponent).1 : ℚ) / (quotient mantissa exponent).2 =
        magnitude mantissa exponent := by
  simp only [quotient, Nat.pow_eq, magnitude]
  by_cases nonneg : 0 ≤ exponent
  · have power := zpow_toNat 2 exponent nonneg
    simp only [ge_iff_le, if_pos nonneg]
    push_cast at power ⊢
    rw [power]
    exact ⟨trivial, by ring⟩
  · have power := zpow_neg_toNat 2 exponent (by omega)
    simp only [ge_iff_le, if_neg nonneg]
    push_cast at power ⊢
    rw [power]
    exact ⟨by positivity, by ring⟩

/-! ## Seventeen digits -/

theorem pow_two_le_pow_ten : (2 : Nat) ^ 1074 ≤ 10 ^ 324 := by decide +kernel

theorem pow_two_lt_pow_ten : (2 : Nat) ^ 53 * 2 ^ 971 < 10 ^ 309 := by decide +kernel

/-- The decimal orders of the finite numbers. -/
theorem order_bounds (mantissa : Nat) (exponent order : Int) (mantissa_pos : 0 < mantissa)
    (canonical : (finite false mantissa exponent).IsCanonical)
    (low : (10 : ℚ) ^ (order - 1) ≤ magnitude mantissa exponent)
    (high : magnitude mantissa exponent < 10 ^ order) : -324 < order ∧ order ≤ 309 := by
  obtain ⟨bounded, least, greatest, -⟩ := canonical
  have mantissa_ge : (1 : ℚ) ≤ mantissa := by exact_mod_cast mantissa_pos
  have mantissa_le : (mantissa : ℚ) ≤ 2 ^ 53 := by exact_mod_cast bounded.le
  unfold magnitude minExponent maxExponent at *
  -- All canonical numbers lie between the smallest one and `2 ^ 53 * 2 ^ 971`.
  constructor
  · have smallest : (10 : ℚ) ^ (-324 : Int) < 10 ^ order := by
      calc (10 : ℚ) ^ (-324 : Int) ≤ 2 ^ (-1074 : Int) := by
            rw [zpow_neg, zpow_neg]
            exact inv_anti₀ (by positivity) (by exact_mod_cast pow_two_le_pow_ten)
        _ ≤ 2 ^ exponent := zpow_le_zpow_right₀ one_le_two least
        _ ≤ mantissa * 2 ^ exponent := le_mul_of_one_le_left (by positivity) mantissa_ge
        _ < 10 ^ order := high
    exact (zpow_lt_zpow_iff_right₀ (by norm_num)).mp smallest
  · have largest : (10 : ℚ) ^ (order - 1) < 10 ^ (309 : Int) := by
      calc (10 : ℚ) ^ (order - 1) ≤ mantissa * 2 ^ exponent := low
        _ ≤ 2 ^ 53 * 2 ^ (971 : Int) := by
            gcongr
            · norm_num
        _ < 10 ^ (309 : Int) := by exact_mod_cast pow_two_lt_pow_ten
    have := (zpow_lt_zpow_iff_right₀ (by norm_num)).mp largest
    omega

/-- A decimal of seventeen digits that is nearest to a number reads back as it. -/
theorem isNear_of_seventeen (mantissa : Nat) (exponent order : Int) (q : ℚ)
    (canonical : (finite false mantissa exponent).IsCanonical)
    (low : (10 : ℚ) ^ (order - 1) ≤ magnitude mantissa exponent)
    (near : |magnitude mantissa exponent - q| ≤ 10 ^ (order - 17) / 2) :
    IsNear q mantissa exponent := by
  have unit_pos : (0 : ℚ) < 2 ^ exponent := by positivity
  have step : (10 : ℚ) ^ (order - 17) = 10 ^ (order - 1) / 10 ^ 16 := by
    rw [show order - 17 = order - 1 - 16 by ring, zpow_sub₀ (by norm_num)]
    norm_num
  rw [abs_sub_comm] at near
  -- Half a step is at most a part in `10 ^ 16` of half the number, and `2 ^ 53` is less than that.
  have bound : |q - magnitude mantissa exponent| ≤ mantissa * 2 ^ exponent / 10 ^ 16 / 2 := by
    refine near.trans ?_
    rw [step]
    unfold magnitude at low
    gcongr
  constructor
  · have mantissa_lt : (mantissa : ℚ) < 2 ^ 53 := by exact_mod_cast canonical.1
    have scaled := mul_lt_mul_of_pos_right mantissa_lt unit_pos
    norm_num at scaled
    linarith
  · intro first
    rw [first] at bound ⊢
    push_cast at bound
    norm_num at bound ⊢
    linarith

/-- The count of digits of a decimal that is nearest to a number on a grid of seventeen digits. -/
theorem digitCount_of_seventeen (q : ℚ) (order : Int) (n : Nat)
    (low : (10 : ℚ) ^ (order - 1) ≤ q) (high : q < 10 ^ order)
    (near : |q - n * 10 ^ (order - 17)| ≤ 10 ^ (order - 17) / 2) :
    0 < n ∧ 17 ≤ digitCount n ∧ digitCount n ≤ 18 := by
  have step_pos : (0 : ℚ) < 10 ^ (order - 17) := by positivity
  have low_steps : (10 : ℚ) ^ (order - 1) = 10 ^ 16 * 10 ^ (order - 17) := by
    rw [show order - 1 = 16 + (order - 17) by ring, zpow_add₀ (by norm_num)]
    norm_num
  have high_steps : (10 : ℚ) ^ order = 10 ^ 17 * 10 ^ (order - 17) := by
    rw [show order = 17 + (order - 17) by ring, zpow_add₀ (by norm_num)]
    norm_num
  rw [low_steps] at low
  rw [high_steps] at high
  obtain ⟨below, above⟩ := abs_le.mp near
  -- Between `10 ^ 16` and `10 ^ 17` steps lie in the quotient, and rounding moves by half a step.
  have n_ge : (10 : ℚ) ^ 16 - 1 < n := by
    rw [← mul_lt_mul_iff_left₀ step_pos]
    linarith
  have n_lt : (n : ℚ) < 10 ^ 17 + 1 := by
    rw [← mul_lt_mul_iff_left₀ step_pos]
    linarith
  have n_ge' : 10 ^ 16 ≤ n := by
    have : ((10 ^ 16 : Nat) : ℚ) < (n + 1 : Nat) := by
      push_cast
      linarith
    have : 10 ^ 16 < n + 1 := by exact_mod_cast this
    omega
  have n_lt' : n < 10 ^ 18 := by
    have : n < 10 ^ 17 + 1 := by exact_mod_cast n_lt
    omega
  refine ⟨by omega, ?_, (digitCount_le_iff n 18 (by omega)).mpr n_lt'⟩
  by_contra fewer
  have := (digitCount_le_iff n 16 (by omega)).mp (by omega)
  omega

/-- The shortest decimal of a number that is not zero reads back as it. -/
theorem ofDecimal_shortest (negative : Bool) (mantissa : Nat) (exponent : Int)
    (mantissa_pos : 0 < mantissa) (canonical : (finite false mantissa exponent).IsCanonical) :
    ofDecimal negative (shortest mantissa exponent).digits (shortest mantissa exponent).exponent =
      finite negative mantissa exponent := by
  obtain ⟨den_pos, value⟩ := quotient_spec mantissa exponent
  have magnitude_pos : 0 < magnitude mantissa exponent := by
    unfold magnitude
    positivity
  generalize parts : quotient mantissa exponent = pair at den_pos value
  obtain ⟨num, den⟩ := pair
  have num_pos : 0 < num := by
    by_contra none
    rw [← value, Nat.eq_zero_of_not_pos none, Nat.cast_zero, zero_div] at magnitude_pos
    exact lt_irrefl _ magnitude_pos
  -- The order of magnitude is found from the counts of the digits of the two parts.
  obtain ⟨least, greatest⟩ := digitCounts_bounds num den num_pos den_pos
  obtain ⟨low, high⟩ := decimalOrder_spec num den den_pos 3
    ((digitCount num : Int) - digitCount den + 1) greatest
    (le_trans (zpow_le_zpow_right₀ (by norm_num) (by push_cast; omega)) least)
  generalize ordered : decimalOrder num den 3 ((digitCount num : Int) - digitCount den + 1) = order
    at low high
  -- On the grid of seventeen digits the nearer neighbour reads back.
  obtain ⟨n, neighbour, near⟩ := exists_near_neighbour num den (order - 17) den_pos
  have value' : (num : ℚ) / den = magnitude mantissa exponent := value
  have counts := digitCount_of_seventeen _ order n low high near
  rw [value'] at low high near
  have orders := order_bounds mantissa exponent order mantissa_pos canonical low high
  obtain ⟨a, b, b_pos, decimal, rounded⟩ := ofDecimal_eq_ofQuotient false n (order - 17)
    counts.1 (by omega) (by omega)
  have reads : ofDecimal false n (order - 17) = finite false mantissa exponent := by
    rw [rounded]
    apply ofQuotient_eq_finite false a b mantissa exponent b_pos mantissa_pos canonical
    rw [decimal]
    exact isNear_of_seventeen mantissa exponent order _ canonical low near
  have found := shortestFrom_isSome (finite false mantissa exponent) num den order 17 1 17
    (by omega) (by omega) n neighbour reads
  obtain ⟨d, chosen⟩ := Option.isSome_iff_exists.mp found
  have short : shortest mantissa exponent = d := by
    unfold shortest
    simp only [parts, ordered, chosen, Option.getD_some]
  rw [short, ofDecimal_signed, shortestFrom_some _ _ _ _ _ _ d chosen]
  rfl

theorem shortest_digits_pos (mantissa : Nat) (exponent : Int) (mantissa_pos : 0 < mantissa)
    (canonical : (finite false mantissa exponent).IsCanonical) :
    0 < (shortest mantissa exponent).digits := by
  have reads := ofDecimal_shortest false mantissa exponent mantissa_pos canonical
  by_contra none
  rw [Nat.eq_zero_of_not_pos none] at reads
  have : mantissa = 0 := by
    simp only [ofDecimal, zero, decide_true, Bool.true_or, ↓reduceIte, finite.injEq] at reads
    exact reads.2.1.symm
  omega

end GraphQLModels.Number.Binary64
