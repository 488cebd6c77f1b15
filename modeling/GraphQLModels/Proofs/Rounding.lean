import GraphQLModels.Number.Binary64
import Mathlib.Algebra.Order.Field.Power
import Mathlib.Data.Int.Log
import Mathlib.Data.Rat.Cast.Order
import Mathlib.Data.Rat.Floor
import Mathlib.Tactic.FieldSimp
import Mathlib.Tactic.Linarith
import Mathlib.Tactic.NormNum
import Mathlib.Tactic.Positivity
import Mathlib.Tactic.Ring

/-!
# Rounding to binary numbers

Rounding is exact arithmetic on quotients of natural numbers. Here the quotients are rational
numbers: what a rounding gives depends on the quotient alone, it is canonical, and it is a given
number as soon as the quotient lies near enough to it.
-/

namespace GraphQLModels.Number.Binary64

/-! ## Powers with integers as exponents -/

theorem zpow_toNat (base : Nat) (e : Int) (nonneg : 0 ≤ e) :
    (base : ℚ) ^ e = ((base ^ e.toNat : Nat) : ℚ) := by
  obtain ⟨n, rfl⟩ := Int.eq_ofNat_of_zero_le nonneg
  simp

theorem zpow_neg_toNat (base : Nat) (e : Int) (neg : e < 0) :
    (base : ℚ) ^ e = (((base ^ (-e).toNat : Nat) : ℚ))⁻¹ := by
  rw [← zpow_toNat base (-e) (by omega), zpow_neg, inv_inv]

/-- A quotient that is divided by a power, whichever part takes the power. -/
theorem scaled_quotient (base num den : Nat) (e : Int) :
    (0 ≤ e → (num : ℚ) / (den * base ^ e.toNat : Nat) = num / den / (base : ℚ) ^ e) ∧
      (e < 0 → ((num * base ^ (-e).toNat : Nat) : ℚ) / den = num / den / (base : ℚ) ^ e) := by
  constructor
  · intro nonneg
    rw [zpow_toNat base e nonneg, Nat.cast_mul, div_mul_eq_div_div]
  · intro neg
    rw [zpow_neg_toNat base e neg, Nat.cast_mul, div_inv_eq_mul]
    ring

/-! ## Quotients rounded to natural numbers -/

theorem roundQuotient_cases (num den : Nat) (den_pos : 0 < den) :
    (roundQuotient num den = num / den ∧ 2 * (num % den) ≤ den) ∨
      (roundQuotient num den = num / den + 1 ∧ den ≤ 2 * (num % den)) := by
  have rest_lt := Nat.mod_lt num den_pos
  unfold roundQuotient
  dsimp only
  split
  · exact .inl ⟨rfl, by omega⟩
  · split
    · rcases Nat.mod_two_eq_zero_or_one (num / den) with even | odd
      · exact .inl ⟨by omega, by omega⟩
      · exact .inr ⟨by omega, by omega⟩
    · exact .inr ⟨rfl, by omega⟩

/-- A rounded quotient is no farther than one half from the quotient. -/
theorem abs_roundQuotient_sub_le (num den : Nat) (den_pos : 0 < den) :
    |(num : ℚ) / den - roundQuotient num den| ≤ 1 / 2 := by
  have parts : ((den * (num / den) + num % den : Nat) : ℚ) = num := by
    rw [Nat.div_add_mod]
  have den_pos' : (0 : ℚ) < den := by exact_mod_cast den_pos
  have rest_nonneg : (0 : ℚ) ≤ (num % den : Nat) := by positivity
  have rest_lt : ((num % den : Nat) : ℚ) < den := by exact_mod_cast Nat.mod_lt num den_pos
  push_cast at parts
  have quotient_eq : (num : ℚ) / den = (num / den : Nat) + (num % den : Nat) / (den : ℚ) := by
    field_simp
    linarith
  rw [quotient_eq, abs_le]
  -- Rounding down leaves out the remainder, rounding up adds what it lacks to the denominator.
  rcases roundQuotient_cases num den den_pos with ⟨rounded, small⟩ | ⟨rounded, large⟩
  · have small' : ((num % den : Nat) : ℚ) / den ≤ 1 / 2 := by
      rw [div_le_div_iff₀ den_pos' (by norm_num)]
      exact_mod_cast (by omega : num % den * 2 ≤ 1 * den)
    have nonneg : (0 : ℚ) ≤ (num % den : Nat) / (den : ℚ) := by positivity
    rw [rounded]
    constructor <;> linarith
  · have large' : 1 / 2 ≤ ((num % den : Nat) : ℚ) / den := by
      rw [div_le_div_iff₀ (by norm_num) den_pos']
      exact_mod_cast (by omega : 1 * den ≤ num % den * 2)
    have below : ((num % den : Nat) : ℚ) / den < 1 := (div_lt_one den_pos').mpr rest_lt
    rw [rounded]
    push_cast
    constructor <;> linarith

/-- A natural number that is nearer than one half is what a quotient is rounded to. -/
theorem roundQuotient_eq (num den n : Nat) (den_pos : 0 < den)
    (near : |(num : ℚ) / den - n| < 1 / 2) : roundQuotient num den = n := by
  have rounded := abs_roundQuotient_sub_le num den den_pos
  rw [abs_le] at rounded
  rw [abs_lt] at near
  have above : (roundQuotient num den : ℚ) < n + 1 := by linarith
  have below : (n : ℚ) < roundQuotient num den + 1 := by linarith
  have above' : roundQuotient num den < n + 1 := by exact_mod_cast above
  have below' : n < roundQuotient num den + 1 := by exact_mod_cast below
  omega

theorem roundQuotient_scale (k num den : Nat) (k_pos : 0 < k) :
    roundQuotient (k * num) (k * den) = roundQuotient num den := by
  unfold roundQuotient
  have less : 2 * (k * (num % den)) < k * den ↔ 2 * (num % den) < den := by
    rw [Nat.mul_left_comm]
    exact Nat.mul_lt_mul_left k_pos
  have equal : 2 * (k * (num % den)) = k * den ↔ 2 * (num % den) = den := by
    rw [Nat.mul_left_comm]
    exact Nat.mul_right_inj (Nat.pos_iff_ne_zero.mp k_pos)
  simp only [Nat.mul_div_mul_left num den k_pos, Nat.mul_mod_mul_left, less, equal]

/-- What a quotient is rounded to depends on the quotient alone. -/
theorem roundQuotient_congr (num den num' den' : Nat) (den_pos : 0 < den) (den_pos' : 0 < den')
    (same : num * den' = num' * den) : roundQuotient num den = roundQuotient num' den' := by
  rw [← roundQuotient_scale den' num den den_pos', ← roundQuotient_scale den num' den' den_pos,
    Nat.mul_comm den' num, Nat.mul_comm den num', same, Nat.mul_comm den' den]

/-- A bound for quotients that is a natural number holds for what they are rounded to. -/
theorem roundQuotient_le (num den n : Nat) (den_pos : 0 < den) (bound : (num : ℚ) / den ≤ n) :
    roundQuotient num den ≤ n := by
  have rounded := abs_le.mp (abs_roundQuotient_sub_le num den den_pos)
  have above : (roundQuotient num den : ℚ) < n + 1 := by linarith
  have above' : roundQuotient num den < n + 1 := by exact_mod_cast above
  omega

theorem le_roundQuotient (num den n : Nat) (den_pos : 0 < den) (bound : n ≤ (num : ℚ) / den) :
    n ≤ roundQuotient num den := by
  have rounded := abs_le.mp (abs_roundQuotient_sub_le num den den_pos)
  have below : (n : ℚ) < roundQuotient num den + 1 := by linarith
  have below' : n < roundQuotient num den + 1 := by exact_mod_cast below
  omega

/-! ## The binary order of a quotient -/

/-- The power of a base that stands next below a number tells its logarithm. -/
theorem log_eq (base : Nat) (q : ℚ) (k : Int) (one_lt : 1 < base) (q_pos : 0 < q)
    (low : (base : ℚ) ^ k ≤ q) (high : q < (base : ℚ) ^ (k + 1)) : Int.log base q = k := by
  have least := (Int.zpow_le_iff_le_log one_lt q_pos).mp low
  have greatest := (Int.lt_zpow_iff_log_lt one_lt q_pos).mp high
  omega

theorem log2_bounds (n : Nat) (n_pos : 0 < n) :
    (2 : ℚ) ^ (Nat.log2 n : Int) ≤ n ∧ (n : ℚ) < 2 ^ ((Nat.log2 n : Int) + 1) := by
  have low := Nat.log2_self_le (Nat.pos_iff_ne_zero.mp n_pos)
  have high := Nat.lt_log2_self (n := n)
  constructor
  · rw [zpow_natCast]
    exact_mod_cast low
  · rw [← Nat.cast_succ, zpow_natCast]
    exact_mod_cast high

/-- The test by which a power of two is compared with a quotient. -/
theorem reached_iff (num den : Nat) (e : Int) (den_pos : 0 < den) :
    (if e ≥ 0 then decide (den * 2 ^ e.toNat ≤ num) else decide (den ≤ num * 2 ^ (-e).toNat)) =
      true ↔ (2 : ℚ) ^ e ≤ num / den := by
  have den_pos' : (0 : ℚ) < den := by exact_mod_cast den_pos
  rw [le_div_iff₀ den_pos']
  by_cases nonneg : 0 ≤ e
  · have power := zpow_toNat 2 e nonneg
    rw [if_pos nonneg, decide_eq_true_iff]
    push_cast at power
    rw [power, mul_comm]
    exact_mod_cast Iff.rfl
  · have power := zpow_neg_toNat 2 e (by omega)
    rw [if_neg nonneg, decide_eq_true_iff]
    push_cast at power
    rw [power, inv_mul_le_iff₀ (by positivity), mul_comm ((2 : ℚ) ^ _)]
    exact_mod_cast Iff.rfl

theorem binaryOrder_eq_log (num den : Nat) (num_pos : 0 < num) (den_pos : 0 < den) :
    binaryOrder num den = Int.log 2 ((num : ℚ) / den) := by
  obtain ⟨num_low, num_high⟩ := log2_bounds num num_pos
  obtain ⟨den_low, den_high⟩ := log2_bounds den den_pos
  have den_pos' : (0 : ℚ) < den := by exact_mod_cast den_pos
  have num_pos' : (0 : ℚ) < num := by exact_mod_cast num_pos
  have above : (num : ℚ) / den < 2 ^ ((Nat.log2 num : Int) - Nat.log2 den + 1) := by
    rw [div_lt_iff₀ den_pos']
    calc (num : ℚ) < 2 ^ ((Nat.log2 num : Int) + 1) := num_high
      _ = 2 ^ ((Nat.log2 num : Int) - Nat.log2 den + 1) * 2 ^ (Nat.log2 den : Int) := by
          rw [← zpow_add₀ (by norm_num)]
          congr 1
          ring
      _ ≤ 2 ^ ((Nat.log2 num : Int) - Nat.log2 den + 1) * den := by gcongr
  have below : (2 : ℚ) ^ ((Nat.log2 num : Int) - Nat.log2 den - 1) ≤ num / den := by
    rw [le_div_iff₀ den_pos']
    calc (2 : ℚ) ^ ((Nat.log2 num : Int) - Nat.log2 den - 1) * den
        ≤ 2 ^ ((Nat.log2 num : Int) - Nat.log2 den - 1) * 2 ^ ((Nat.log2 den : Int) + 1) := by
          gcongr
      _ = 2 ^ (Nat.log2 num : Int) := by
          rw [← zpow_add₀ (by norm_num)]
          congr 1
          ring
      _ ≤ num := num_low
  have reached := reached_iff num den ((Nat.log2 num : Int) - Nat.log2 den) den_pos
  have q_pos : (0 : ℚ) < num / den := by positivity
  -- The difference of the two logarithms is the order, or one too large.
  simp only [binaryOrder, Nat.pow_eq]
  by_cases reaches : (2 : ℚ) ^ ((Nat.log2 num : Int) - Nat.log2 den) ≤ num / den
  · rw [if_pos (reached.mpr reaches)]
    exact (log_eq 2 _ _ one_lt_two q_pos (by exact_mod_cast reaches)
      (by exact_mod_cast above)).symm
  · rw [if_neg fun test => reaches (reached.mp test)]
    exact (log_eq 2 _ _ one_lt_two q_pos (by exact_mod_cast below)
      (by rw [sub_add_cancel]; exact_mod_cast lt_of_not_ge reaches)).symm

/-! ## The number nearest to a quotient -/

/-- The exponent of the numbers among which the nearest to a quotient is sought. -/
def unitExponent (q : ℚ) : Int := max (Int.log 2 q - 52) minExponent

/-- The number with a mantissa that may have been rounded up to the next power of two. -/
def packed (negative : Bool) (mantissa : Nat) (exponent : Int) : Binary64 :=
  let (mantissa, exponent) :=
    if mantissa = 2 ^ 53 then (2 ^ 52, exponent + 1) else (mantissa, exponent)
  if exponent > maxExponent then .infinite negative else .finite negative mantissa exponent

/-- The nearest number: the quotient is counted in units and the count is rounded. -/
theorem ofQuotient_eq_packed (negative : Bool) (num den : Nat) (num_pos : 0 < num)
    (den_pos : 0 < den) :
    ∃ a b : Nat, 0 < b ∧ (a : ℚ) / b = num / den / 2 ^ unitExponent (num / den) ∧
      ofQuotient negative num den =
        packed negative (roundQuotient a b) (unitExponent (num / den)) := by
  have scaled := scaled_quotient 2 num den (unitExponent (num / den))
  unfold ofQuotient
  rw [if_neg (Nat.pos_iff_ne_zero.mp num_pos), binaryOrder_eq_log num den num_pos den_pos]
  change ∃ a b : Nat, 0 < b ∧ (a : ℚ) / b = num / den / 2 ^ unitExponent (num / den) ∧
    packed negative (if unitExponent (num / den) ≥ 0 then _ else _) _ = _
  by_cases nonneg : 0 ≤ unitExponent ((num : ℚ) / den)
  · rw [if_pos nonneg]
    exact ⟨_, _, Nat.mul_pos den_pos (by positivity), scaled.1 nonneg, rfl⟩
  · rw [if_neg nonneg]
    exact ⟨_, _, den_pos, scaled.2 (by omega), rfl⟩

theorem log_bounds (q : ℚ) (q_pos : 0 < q) :
    (2 : ℚ) ^ Int.log 2 q ≤ q ∧ q < 2 ^ (Int.log 2 q + 1) :=
  ⟨Int.zpow_log_le_self one_lt_two q_pos, Int.lt_zpow_succ_log_self one_lt_two q⟩

/-- A quotient counts less than `2 ^ 53` units, and at least half of that unless the unit is the
smallest. -/
theorem units_bounds (q : ℚ) (q_pos : 0 < q) :
    q / 2 ^ unitExponent q < 2 ^ 53 ∧
      (unitExponent q = minExponent ∨ 2 ^ 52 ≤ q / 2 ^ unitExponent q) := by
  obtain ⟨low, high⟩ := log_bounds q q_pos
  have unit_pos : (0 : ℚ) < 2 ^ unitExponent q := by positivity
  constructor
  · rw [div_lt_iff₀ unit_pos]
    calc q < 2 ^ (Int.log 2 q + 1) := high
      _ ≤ 2 ^ (53 + unitExponent q) := by
          apply zpow_le_zpow_right₀ one_le_two
          have := le_max_left (Int.log 2 q - 52) minExponent
          unfold unitExponent
          omega
      _ = 2 ^ 53 * 2 ^ unitExponent q := by rw [zpow_add₀ (by norm_num)]; norm_num
  · rcases max_choice (Int.log 2 q - 52) minExponent with normal | smallest
    · right
      rw [le_div_iff₀ unit_pos]
      calc (2 : ℚ) ^ 52 * 2 ^ unitExponent q = 2 ^ (52 + unitExponent q) := by
            rw [zpow_add₀ (by norm_num)]; norm_num
        _ = 2 ^ Int.log 2 q := by
            unfold unitExponent
            rw [normal]
            congr 1
            ring
        _ ≤ q := low
    · exact .inl smallest

/-- The finite numbers as they are kept: the mantissa has 53 bits, or fewer at the smallest
exponent. -/
def IsCanonical : Binary64 → Prop
  | .finite _ mantissa exponent =>
    mantissa < 2 ^ 53 ∧ minExponent ≤ exponent ∧ exponent ≤ maxExponent ∧
      (2 ^ 52 ≤ mantissa ∨ exponent = minExponent)
  | _ => True

theorem packed_isCanonical (negative : Bool) (mantissa : Nat) (exponent : Int)
    (bounded : mantissa ≤ 2 ^ 53) (least : minExponent ≤ exponent)
    (full : 2 ^ 52 ≤ mantissa ∨ exponent = minExponent) :
    (packed negative mantissa exponent).IsCanonical := by
  unfold packed
  by_cases carried : mantissa = 2 ^ 53
  · simp only [if_pos carried]
    split
    · trivial
    · exact ⟨by norm_num, by omega, by omega, .inl le_rfl⟩
  · simp only [if_neg carried]
    split
    · trivial
    · exact ⟨by omega, least, by omega, full⟩

/-- What a quotient is rounded to is canonical. -/
theorem ofQuotient_isCanonical (negative : Bool) (num den : Nat) (den_pos : 0 < den) :
    (ofQuotient negative num den).IsCanonical := by
  by_cases num_zero : num = 0
  · rw [ofQuotient, if_pos num_zero]
    exact ⟨by norm_num, le_rfl, by decide, .inr rfl⟩
  · have num_pos := Nat.pos_of_ne_zero num_zero
    obtain ⟨a, b, b_pos, units, rounded⟩ :=
      ofQuotient_eq_packed negative num den num_pos den_pos
    obtain ⟨below, above⟩ := units_bounds (num / den) (by positivity)
    rw [rounded]
    apply packed_isCanonical
    · exact roundQuotient_le a b _ b_pos (by rw [units]; exact_mod_cast below.le)
    · exact le_max_right _ _
    · rcases above with smallest | full
      · exact .inr smallest
      · exact .inl (le_roundQuotient a b _ b_pos (by rw [units]; exact_mod_cast full))

/-- What a quotient is rounded to depends on the quotient alone. -/
theorem ofQuotient_congr (negative : Bool) (num den num' den' : Nat) (den_pos : 0 < den)
    (den_pos' : 0 < den') (same : (num : ℚ) / den = num' / den') :
    ofQuotient negative num den = ofQuotient negative num' den' := by
  have den_ne : (den : ℚ) ≠ 0 := by exact_mod_cast Nat.pos_iff_ne_zero.mp den_pos
  have den_ne' : (den' : ℚ) ≠ 0 := by exact_mod_cast Nat.pos_iff_ne_zero.mp den_pos'
  -- A zero is rounded by itself; it is one under any denominator.
  rcases Nat.eq_zero_or_pos num with num_zero | num_pos
  · have num_zero' : num' = 0 := by
      rw [num_zero, Nat.cast_zero, zero_div, eq_comm, div_eq_zero_iff] at same
      exact_mod_cast same.resolve_right den_ne'
    rw [num_zero, num_zero']
    simp [ofQuotient]
  · have q_pos : (0 : ℚ) < num / den := by positivity
    have num_pos' : 0 < num' := by
      rw [same] at q_pos
      by_contra none
      rw [Nat.eq_zero_of_not_pos none, Nat.cast_zero, zero_div] at q_pos
      exact lt_irrefl _ q_pos
    obtain ⟨a, b, b_pos, units, rounded⟩ :=
      ofQuotient_eq_packed negative num den num_pos den_pos
    obtain ⟨a', b', b_pos', units', rounded'⟩ :=
      ofQuotient_eq_packed negative num' den' num_pos' den_pos'
    rw [rounded, rounded', same]
    congr 1
    apply roundQuotient_congr a b a' b' b_pos b_pos'
    rw [same, ← units', div_eq_div_iff (by positivity) (by positivity)] at units
    exact_mod_cast units

theorem packed_of_lt (negative : Bool) (mantissa : Nat) (exponent : Int)
    (bounded : mantissa < 2 ^ 53) (greatest : exponent ≤ maxExponent) :
    packed negative mantissa exponent = finite negative mantissa exponent := by
  unfold packed
  simp only [if_neg (Nat.ne_of_lt bounded), gt_iff_lt, if_neg (not_lt.mpr greatest)]

theorem packed_carried (negative : Bool) (exponent : Int) (greatest : exponent ≤ maxExponent) :
    packed negative (2 ^ 53) (exponent - 1) = finite negative (2 ^ 52) exponent := by
  unfold packed
  simp only [↓reduceIte, sub_add_cancel, gt_iff_lt, if_neg (not_lt.mpr greatest)]

/-- The number that a mantissa and an exponent mean. -/
def magnitude (mantissa : Nat) (exponent : Int) : ℚ := mantissa * 2 ^ exponent

/-- How near to a number a quotient has to lie so that it is rounded to it: half a unit, and a
quarter at the lower end of the mantissas, where the units below are half as large. -/
def IsNear (q : ℚ) (mantissa : Nat) (exponent : Int) : Prop :=
  |q - magnitude mantissa exponent| < 2 ^ exponent / 2 ∧
    (mantissa = 2 ^ 52 → |q - magnitude mantissa exponent| < 2 ^ exponent / 4)

theorem IsNear.pos (q : ℚ) (mantissa : Nat) (exponent : Int) (mantissa_pos : 0 < mantissa)
    (near : IsNear q mantissa exponent) : 0 < q := by
  have unit_pos : (0 : ℚ) < 2 ^ exponent := by positivity
  have mantissa_ge : (1 : ℚ) ≤ mantissa := by exact_mod_cast mantissa_pos
  have unit_le := mul_le_mul_of_nonneg_right mantissa_ge unit_pos.le
  have below := (abs_lt.mp near.1).1
  unfold magnitude at below
  linarith

/-- A quotient near to a number counts the units of that number, unless it lies below the smallest
number with those units. -/
theorem IsNear.unitExponent_cases (q : ℚ) (mantissa : Nat) (exponent : Int)
    (mantissa_pos : 0 < mantissa) (canonical : (finite false mantissa exponent).IsCanonical)
    (near : IsNear q mantissa exponent) :
    unitExponent q = exponent ∨ mantissa = 2 ^ 52 ∧ unitExponent q = exponent - 1 := by
  obtain ⟨bounded, least, -, full⟩ := canonical
  have q_pos := near.pos q mantissa exponent mantissa_pos
  have unit_pos : (0 : ℚ) < 2 ^ exponent := by positivity
  obtain ⟨below, above⟩ := abs_lt.mp near.1
  unfold magnitude at below above
  -- Near to a number with these units, the quotient lies below all that need greater ones.
  have log_le : Int.log 2 q ≤ exponent + 52 := by
    have mantissa_le : (mantissa : ℚ) + 1 ≤ 2 ^ 53 := by exact_mod_cast bounded
    have scaled := mul_le_mul_of_nonneg_right mantissa_le unit_pos.le
    have q_lt : q < 2 ^ (exponent + 53) := by
      rw [add_comm, zpow_add₀ (by norm_num)]
      norm_cast at scaled ⊢
      push_cast at scaled ⊢
      linarith
    have := (Int.lt_zpow_iff_log_lt one_lt_two q_pos).mp (by exact_mod_cast q_lt)
    omega
  rcases lt_or_ge (Int.log 2 q) (exponent + 52) with lower | reached
  · rcases full with full | smallest
    · -- The quotient lies below all numbers with these units, so it is near to the first of them.
      have q_lt : q < 2 ^ (52 + exponent) :=
        (Int.lt_zpow_iff_log_lt one_lt_two q_pos).mpr (by omega)
      rw [zpow_add₀ (by norm_num)] at q_lt
      have mantissa_lt : (mantissa : ℚ) < 2 ^ 52 + 1 := by
        by_contra large
        have scaled := mul_le_mul_of_nonneg_right (not_lt.mp large) unit_pos.le
        norm_cast at scaled q_lt
        push_cast at scaled q_lt
        linarith
      have first : mantissa = 2 ^ 52 := by
        have : mantissa < 2 ^ 52 + 1 := by exact_mod_cast mantissa_lt
        omega
      have q_gt : (2 : ℚ) ^ (51 + exponent) ≤ q := by
        have nearer := (abs_lt.mp (near.2 first)).1
        unfold magnitude at nearer
        rw [first] at nearer
        rw [zpow_add₀ (by norm_num)]
        norm_num at nearer ⊢
        linarith
      have log_ge := (Int.zpow_le_iff_le_log one_lt_two q_pos).mp q_gt
      rcases Int.lt_or_eq_of_le least with larger | smallest
      · exact .inr ⟨first, by unfold unitExponent; omega⟩
      · exact .inl (by unfold unitExponent; omega)
    · exact .inl (by unfold unitExponent; omega)
  · exact .inl (by unfold unitExponent; omega)

/-- A number near to a multiple of a unit, counted in units. -/
theorem abs_div_sub_lt (q unit count : ℚ) (unit_pos : 0 < unit)
    (near : |q - count * unit| < unit / 2) : |q / unit - count| < 1 / 2 := by
  have counted : q / unit - count = (q - count * unit) / unit := by
    rw [sub_div, mul_div_cancel_right₀ _ unit_pos.ne']
  rw [counted, abs_div, abs_of_pos unit_pos, div_lt_iff₀ unit_pos]
  linarith

/-- A canonical number is what every quotient near to it is rounded to. -/
theorem ofQuotient_eq_finite (negative : Bool) (num den mantissa : Nat) (exponent : Int)
    (den_pos : 0 < den) (mantissa_pos : 0 < mantissa)
    (canonical : (finite false mantissa exponent).IsCanonical)
    (near : IsNear (num / den) mantissa exponent) :
    ofQuotient negative num den = finite negative mantissa exponent := by
  have q_pos := near.pos _ mantissa exponent mantissa_pos
  have num_pos : 0 < num := by
    by_contra none
    rw [Nat.eq_zero_of_not_pos none, Nat.cast_zero, zero_div] at q_pos
    exact lt_irrefl _ q_pos
  obtain ⟨a, b, b_pos, units, rounded⟩ := ofQuotient_eq_packed negative num den num_pos den_pos
  rw [rounded]
  rcases near.unitExponent_cases _ mantissa exponent mantissa_pos canonical with
    same | ⟨first, half⟩
  · have counted : roundQuotient a b = mantissa := by
      apply roundQuotient_eq a b mantissa b_pos
      rw [units, same]
      exact abs_div_sub_lt _ _ _ (by positivity) near.1
    rw [counted, same]
    exact packed_of_lt negative mantissa exponent canonical.1 canonical.2.2.1
  · -- Below a power of two the units are half as large, and the mantissa is carried.
    have counted : roundQuotient a b = 2 ^ 53 := by
      apply roundQuotient_eq a b (2 ^ 53) b_pos
      rw [units, half]
      apply abs_div_sub_lt _ _ _ (by positivity)
      have nearer := near.2 first
      rw [magnitude, first] at nearer
      rw [zpow_sub_one₀ (by norm_num)]
      have twice : ((2 ^ 53 : Nat) : ℚ) * (2 ^ exponent * 2⁻¹) = (2 ^ 52 : Nat) * 2 ^ exponent := by
        push_cast
        ring
      rw [twice]
      linarith
    rw [counted, half, first]
    exact packed_carried negative exponent canonical.2.2.1

end GraphQLModels.Number.Binary64
