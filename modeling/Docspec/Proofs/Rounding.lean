import Docspec.Decimal.Shortest
import Mathlib.Algebra.Order.Field.Power
import Mathlib.Algebra.Order.Field.Rat
import Mathlib.Data.Rat.Cast.Order
import Mathlib.Tactic.FieldSimp
import Mathlib.Tactic.Linarith
import Mathlib.Tactic.NormNum
import Mathlib.Tactic.Positivity
import Mathlib.Tactic.Ring

set_option autoImplicit false

namespace Docspec.Double

structure Normal (m : Nat) (e : Int) : Prop where
  least : leastExponent ≤ e
  short : m < 2 ^ 53
  full : 2 ^ 52 ≤ m ∨ e = leastExponent

def Interval.Contains (i : Interval) (x : ℚ) : Prop :=
  if i.closed then i.low ≤ x ∧ x ≤ i.high else i.low < x ∧ x < i.high

/-- The fractions nearer to a number than to all others, with those half way from an even one. -/
def RoundsTo (m : Nat) (e : Int) (q : ℚ) : Prop := (interval m e).Contains (q / 2 ^ (e - 2))

theorem two_zpow_pos (e : Int) : (0 : ℚ) < 2 ^ e := zpow_pos (by norm_num) e

theorem quarters_eq (q : ℚ) (e : Int) : q / 2 ^ (e - 2) = 4 * (q / 2 ^ e) := by
  rw [zpow_sub₀ (by norm_num)]
  field_simp
  norm_num

section Interval

variable {m : Nat} {e : Int} {x y z : ℚ}

theorem interval_high : (((interval m e).high : Nat) : ℚ) = 4 * m + 2 := by simp [interval]

theorem interval_low (other : ¬ (m = 2 ^ 52 ∧ e > leastExponent)) (positive : 0 < m) :
    (((interval m e).low : Nat) : ℚ) = 4 * m - 2 := by
  have inside : 2 ≤ 4 * m := by omega
  have low : (interval m e).low = 4 * m - 2 := if_neg other
  rw [low]
  push_cast [Nat.cast_sub inside]
  ring

theorem interval_low_full (above : e > leastExponent) :
    (((interval (2 ^ 52) e).low : Nat) : ℚ) = 4 * 2 ^ 52 - 1 := by
  have low : (interval (2 ^ 52) e).low = 4 * 2 ^ 52 - 1 := if_pos ⟨rfl, above⟩
  rw [low]
  norm_num

theorem contains_even (even : m % 2 = 0) :
    (interval m e).Contains x ↔ (interval m e).low ≤ x ∧ x ≤ 4 * m + 2 := by
  have closed : (interval m e).closed = true := by simp [interval, even]
  rw [Interval.Contains, if_pos closed, interval_high]

theorem contains_odd (odd : m % 2 = 1) :
    (interval m e).Contains x ↔ 4 * m - 2 < x ∧ x < 4 * m + 2 := by
  have opened : ¬ (interval m e).closed = true := by simp [interval, odd]
  have other : ¬ (m = 2 ^ 52 ∧ e > leastExponent) := by
    rintro ⟨rfl, -⟩
    exact absurd odd (by decide)
  rw [Interval.Contains, if_neg opened, interval_high, interval_low other (by omega)]

theorem contains_bounds (contained : (interval m e).Contains x) :
    (interval m e).low ≤ x ∧ x ≤ 4 * m + 2 := by
  rw [Interval.Contains, interval_high] at contained
  split at contained
  · exact contained
  · exact ⟨contained.1.le, contained.2.le⟩

theorem contains_near (positive : 0 ≤ x) (above : 4 * (m : ℚ) - 2 ≤ x) (below : x ≤ 4 * m + 2)
    (odd : m % 2 = 1 → 4 * (m : ℚ) - 2 < x ∧ x < 4 * m + 2)
    (full : m = 2 ^ 52 → leastExponent < e → 4 * (m : ℚ) ≤ x) : (interval m e).Contains x := by
  rcases Nat.mod_two_eq_zero_or_one m with even | isOdd
  · rw [contains_even even]
    refine ⟨?_, below⟩
    by_cases first : m = 2 ^ 52 ∧ e > leastExponent
    next =>
      obtain ⟨rfl, beyond⟩ := first
      have whole := full rfl beyond
      rw [interval_low_full beyond]
      push_cast at whole
      linarith
    next =>
      rcases Nat.eq_zero_or_pos m with rfl | counted
      · simpa [interval] using positive
      · rwa [interval_low first counted]
  · exact (contains_odd isOdd).2 (odd isOdd)

theorem Interval.Contains.convex {i : Interval} (first : i.Contains x) (last : i.Contains z)
    (above : x ≤ y) (below : y ≤ z) : i.Contains y := by
  unfold Interval.Contains at *
  split_ifs at *
  · exact ⟨first.1.trans above, below.trans last.2⟩
  · exact ⟨first.1.trans_le above, below.trans_lt last.2⟩

end Interval

section Unique

variable {m n : Nat} {e f : Int} {q : ℚ}

-- The greatest mantissa is odd, so no interval reaches the end of its power of two.
theorem RoundsTo.below (normal : Normal m e) (rounds : RoundsTo m e q) :
    q / 2 ^ (e - 2) < 2 ^ 55 - 2 := by
  have bound : (m : ℚ) ≤ 2 ^ 53 - 1 := by
    have short : m + 1 ≤ 2 ^ 53 := normal.short
    have cast : ((m + 1 : Nat) : ℚ) ≤ ((2 ^ 53 : Nat) : ℚ) := Nat.cast_le.2 short
    push_cast at cast
    linarith
  by_cases last : m = 2 ^ 53 - 1
  next =>
    have odd : m % 2 = 1 := by rw [last]; decide
    have inside := ((contains_odd odd).1 rounds).2
    linarith
  next =>
    have bound : (m : ℚ) ≤ 2 ^ 53 - 2 := by
      have short : m + 2 ≤ 2 ^ 53 := by have := normal.short; omega
      have cast : ((m + 2 : Nat) : ℚ) ≤ ((2 ^ 53 : Nat) : ℚ) := Nat.cast_le.2 short
      push_cast at cast
      linarith
    have inside := (contains_bounds rounds).2
    linarith

theorem RoundsTo.above (normal : Normal m e) (beyond : leastExponent < e)
    (rounds : RoundsTo m e q) : 2 ^ 54 - 1 ≤ q / 2 ^ (e - 2) := by
  have full : 2 ^ 52 ≤ m := normal.full.resolve_right beyond.ne'
  have inside := (contains_bounds rounds).1
  by_cases first : m = 2 ^ 52
  next =>
    subst first
    rw [interval_low_full beyond] at inside
    linarith
  next =>
    have bound : (2 : ℚ) ^ 52 + 1 ≤ m := by
      have more : 2 ^ 52 + 1 ≤ m := by omega
      exact_mod_cast more
    rw [interval_low (fun both => first both.1) (by omega)] at inside
    linarith

theorem RoundsTo.exponent_le (normal : Normal m e) (other : Normal n f) (first : RoundsTo m e q)
    (second : RoundsTo n f q) : f ≤ e := by
  by_contra less
  have beyond : leastExponent < f := lt_of_le_of_lt normal.least (not_le.1 less)
  have upper := first.below normal
  have lower := second.above other beyond
  rw [div_lt_iff₀ (two_zpow_pos _)] at upper
  rw [le_div_iff₀ (two_zpow_pos _)] at lower
  have step : (2 : ℚ) * 2 ^ (e - 2) ≤ 2 ^ (f - 2) := by
    rw [← zpow_one_add₀ (by norm_num)]
    exact zpow_le_zpow_right₀ (by norm_num) (by omega)
  have scaled := mul_le_mul_of_nonneg_left step (by norm_num : (0 : ℚ) ≤ 2 ^ 54 - 1)
  linarith

theorem RoundsTo.mantissa_le (normal : Normal m e) (other : Normal n e) (first : RoundsTo m e q)
    (second : RoundsTo n e q) : n ≤ m := by
  by_contra less
  have next : m + 1 ≤ n := by omega
  have inner : ¬ (n = 2 ^ 52 ∧ e > leastExponent) := by
    rintro ⟨rfl, beyond⟩
    exact less (normal.full.resolve_right beyond.ne')
  have low := interval_low inner (by omega)
  have step : (m : ℚ) + 1 ≤ n := by exact_mod_cast next
  -- Where the intervals of neighbours touch, one of them is open.
  rcases Nat.mod_two_eq_zero_or_one m with even | odd
  · rcases Nat.mod_two_eq_zero_or_one n with even' | odd'
    · have far : (m : ℚ) + 2 ≤ n := by exact_mod_cast (by omega : m + 2 ≤ n)
      have upper := (contains_bounds first).2
      have lower := (contains_bounds second).1
      rw [low] at lower
      linarith
    · have upper := (contains_bounds first).2
      have lower := ((contains_odd odd').1 second).1
      linarith
  · have upper := ((contains_odd odd).1 first).2
    have lower := (contains_bounds second).1
    rw [low] at lower
    linarith

theorem RoundsTo.unique (normal : Normal m e) (other : Normal n f) (first : RoundsTo m e q)
    (second : RoundsTo n f q) : n = m ∧ f = e := by
  obtain rfl : f = e :=
    le_antisymm (first.exponent_le normal other second) (second.exponent_le other normal first)
  exact ⟨le_antisymm (first.mantissa_le normal other second)
    (second.mantissa_le other normal first), rfl⟩

end Unique

section Round

variable {num den : Nat}

theorem inUnits_eq (num : Nat) (positive : 0 < den) (e : Int) :
    0 < (inUnits num den e).2 ∧
      ((inUnits num den e).1 : ℚ) / (inUnits num den e).2 = num / den / 2 ^ e := by
  by_cases whole : 0 ≤ e
  next =>
    obtain ⟨k, rfl⟩ := Int.eq_ofNat_of_zero_le whole
    have units : inUnits num den k = (num, den * 2 ^ k) := if_pos whole
    rw [units]
    refine ⟨by positivity, ?_⟩
    push_cast
    rw [zpow_natCast, div_div]
  next =>
    obtain ⟨k, same⟩ : ∃ k : Nat, -e = k := ⟨(-e).toNat, by omega⟩
    have units : inUnits num den e = (num * 2 ^ k, den) := by
      rw [inUnits, if_neg whole, same]
      rfl
    have power : e = -(k : Int) := by omega
    rw [units]
    refine ⟨positive, ?_⟩
    rw [power, zpow_neg, zpow_natCast]
    push_cast
    field_simp

theorem nearestEven_spec (num : Nat) (positive : 0 < den) :
    2 * (nearestEven num den * den) ≤ 2 * num + den ∧
      2 * num ≤ 2 * (nearestEven num den * den) + den ∧
      (nearestEven num den % 2 = 1 → 2 * (nearestEven num den * den) < 2 * num + den ∧
        2 * num < 2 * (nearestEven num den * den) + den) := by
  have parts : num / den * den + num % den = num := Nat.div_add_mod' num den
  have rest : num % den < den := Nat.mod_lt num positive
  simp only [nearestEven]
  split
  next up =>
    simp only [Bool.or_eq_true, Bool.and_eq_true, decide_eq_true_eq, beq_iff_eq, gt_iff_lt] at up
    rw [Nat.add_mul, Nat.one_mul]
    omega
  next down =>
    simp only [Bool.or_eq_true, Bool.and_eq_true, decide_eq_true_eq, beq_iff_eq, gt_iff_lt,
      not_or, not_and] at down
    omega

theorem nearestEven_bounds (num : Nat) (positive : 0 < den) :
    (nearestEven num den : ℚ) - 1 / 2 ≤ num / den ∧ (num : ℚ) / den ≤ nearestEven num den + 1 / 2 ∧
      (nearestEven num den % 2 = 1 → (nearestEven num den : ℚ) - 1 / 2 < num / den ∧
        (num : ℚ) / den < nearestEven num den + 1 / 2) := by
  have unit : (0 : ℚ) < den := by exact_mod_cast positive
  obtain ⟨low, high, odd⟩ := nearestEven_spec num positive
  have lower : (2 : ℚ) * (nearestEven num den * den) ≤ 2 * num + den := by exact_mod_cast low
  have upper : (2 : ℚ) * num ≤ 2 * (nearestEven num den * den) + den := by exact_mod_cast high
  refine ⟨?_, ?_, fun isOdd => ?_⟩
  · rw [le_div_iff₀ unit]
    linarith
  · rw [div_le_iff₀ unit]
    linarith
  · have lower : (2 : ℚ) * (nearestEven num den * den) < 2 * num + den := by
      exact_mod_cast (odd isOdd).1
    have upper : (2 : ℚ) * num < 2 * (nearestEven num den * den) + den := by
      exact_mod_cast (odd isOdd).2
    rw [lt_div_iff₀ unit, div_lt_iff₀ unit]
    constructor <;> linarith

def fullExponent (num den : Nat) (guess : Int) : Int :=
  if (inUnits num den guess).1 / (inUnits num den guess).2 < Nat.pow 2 52 then guess - 1 else guess

def unitExponent (num den : Nat) : Int :=
  max leastExponent (fullExponent num den ((num.log2 : Int) - (den.log2 : Int) - 52))

theorem round_unfold (negative : Bool) (nonzero : num ≠ 0) :
    round negative num den =
      let (n, d) := inUnits num den (unitExponent num den)
      let (m, e) := if nearestEven n d = Nat.pow 2 53 then (Nat.pow 2 52, unitExponent num den + 1)
        else (nearestEven n d, unitExponent num den)
      if e > greatestExponent then .infinite negative else .finite negative m e := by
  rw [round, if_neg nonzero]
  rfl

theorem guess_bounds (counted : 0 < num) (positive : 0 < den) :
    let guess : Int := (num.log2 : Int) - (den.log2 : Int) - 52
    (2 : ℚ) ^ 51 < num / den / 2 ^ guess ∧ (num : ℚ) / den / 2 ^ guess < 2 ^ 53 := by
  intro guess
  have unit : (0 : ℚ) < den := by exact_mod_cast positive
  have numLow : (2 : ℚ) ^ num.log2 ≤ num := by
    exact_mod_cast Nat.log2_self_le counted.ne'
  have numHigh : (num : ℚ) < 2 ^ (num.log2 + 1) := by exact_mod_cast Nat.lt_log2_self
  have denLow : (2 : ℚ) ^ den.log2 ≤ den := by
    exact_mod_cast Nat.log2_self_le positive.ne'
  have denHigh : (den : ℚ) < 2 ^ (den.log2 + 1) := by exact_mod_cast Nat.lt_log2_self
  have split (k : Nat) : (2 : ℚ) ^ k * 2 ^ guess * 2 ^ (den.log2 + 52) = 2 ^ (num.log2 + k) := by
    rw [← zpow_natCast, ← zpow_natCast, ← zpow_natCast, ← zpow_add₀ (by norm_num),
      ← zpow_add₀ (by norm_num)]
    congr 1
    push_cast
    omega
  have scale : (0 : ℚ) < 2 ^ guess := two_zpow_pos guess
  constructor
  · rw [lt_div_iff₀ scale, lt_div_iff₀ unit]
    have bound : (2 : ℚ) ^ 51 * 2 ^ guess * den < 2 ^ 51 * 2 ^ guess * 2 ^ (den.log2 + 1) :=
      mul_lt_mul_of_pos_left denHigh (by positivity)
    have same : (2 : ℚ) ^ 51 * 2 ^ guess * 2 ^ (den.log2 + 1) = 2 ^ num.log2 := by
      have whole := split 0
      rw [pow_add] at whole ⊢
      norm_num at whole ⊢
      linarith
    linarith
  · rw [div_lt_iff₀ scale, div_lt_iff₀ unit]
    have bound : (2 : ℚ) ^ 53 * 2 ^ guess * 2 ^ den.log2 ≤ 2 ^ 53 * 2 ^ guess * den :=
      mul_le_mul_of_nonneg_left denLow (by positivity)
    have same : (2 : ℚ) ^ 53 * 2 ^ guess * 2 ^ den.log2 = 2 ^ (num.log2 + 1) := by
      have whole := split 1
      rw [pow_add] at whole
      norm_num at whole ⊢
      linarith
    linarith

theorem fullExponent_spec (positive : 0 < den) {guess : Int}
    (low : (2 : ℚ) ^ 51 < num / den / 2 ^ guess) (high : (num : ℚ) / den / 2 ^ guess < 2 ^ 53) :
    (2 : ℚ) ^ 52 ≤ num / den / 2 ^ fullExponent num den guess ∧
      (num : ℚ) / den / 2 ^ fullExponent num den guess < 2 ^ 53 := by
  obtain ⟨unit, value⟩ := inUnits_eq num positive guess
  have unit' : (0 : ℚ) < (inUnits num den guess).2 := by exact_mod_cast unit
  rw [fullExponent]
  split
  next less =>
    rw [Nat.div_lt_iff_lt_mul unit, Nat.pow_eq] at less
    have small : (num : ℚ) / den / 2 ^ guess < 2 ^ 52 := by
      rw [← value, div_lt_iff₀ unit']
      exact_mod_cast less
    have twice : (num : ℚ) / den / 2 ^ (guess - 1) = 2 * (num / den / 2 ^ guess) := by
      rw [zpow_sub₀ (by norm_num), zpow_one]
      field_simp
    rw [twice]
    constructor <;> linarith
  next more =>
    rw [Nat.div_lt_iff_lt_mul unit, Nat.pow_eq, not_lt] at more
    refine ⟨?_, high⟩
    rw [← value, le_div_iff₀ unit']
    exact_mod_cast more

theorem unitExponent_spec (counted : 0 < num) (positive : 0 < den) :
    (num : ℚ) / den / 2 ^ unitExponent num den < 2 ^ 53 ∧
      (2 ^ 52 ≤ (num : ℚ) / den / 2 ^ unitExponent num den ∨
        unitExponent num den = leastExponent) := by
  obtain ⟨low, high⟩ := guess_bounds counted positive
  obtain ⟨full, short⟩ := fullExponent_spec positive low high
  rw [unitExponent]
  generalize fullExponent num den _ = e at full short ⊢
  rcases le_total leastExponent e with within | beyond
  · rw [max_eq_right within]
    exact ⟨short, .inl full⟩
  · rw [max_eq_left beyond]
    refine ⟨lt_of_le_of_lt ?_ short, .inr rfl⟩
    have wider : (2 : ℚ) ^ e ≤ 2 ^ leastExponent := zpow_le_zpow_right₀ (by norm_num) beyond
    have fraction : (0 : ℚ) ≤ num / den := by positivity
    exact div_le_div_of_nonneg_left fraction (two_zpow_pos e) wider

def limited (negative : Bool) (m : Nat) (e : Int) : Double :=
  if e > greatestExponent then .infinite negative else .finite negative m e

theorem roundsTo_zero : Normal 0 leastExponent ∧ RoundsTo 0 leastExponent 0 := by
  refine ⟨⟨le_rfl, by norm_num, .inr rfl⟩, ?_⟩
  rw [RoundsTo, contains_even (by norm_num)]
  norm_num [interval]

theorem exists_round (negative : Bool) (num : Nat) (positive : 0 < den) :
    ∃ m e, Normal m e ∧ RoundsTo m e (num / den) ∧
      round negative num den = limited negative m e := by
  rcases Nat.eq_zero_or_pos num with rfl | counted
  · refine ⟨0, leastExponent, roundsTo_zero.1, ?_, rfl⟩
    simpa using roundsTo_zero.2
  obtain ⟨short, full⟩ := unitExponent_spec counted positive
  have least : leastExponent ≤ unitExponent num den := le_max_left _ _
  rw [round_unfold negative counted.ne']
  generalize unitExponent num den = e at short full least ⊢
  obtain ⟨unit, value⟩ := inUnits_eq num positive e
  obtain ⟨low, high, odd⟩ := nearestEven_bounds (inUnits num den e).1 unit
  rw [value] at low high odd
  change ∃ m' e', Normal m' e' ∧ RoundsTo m' e' (num / den) ∧
    (let (m, e) := if nearestEven (inUnits num den e).1 (inUnits num den e).2 = Nat.pow 2 53 then
      (Nat.pow 2 52, e + 1) else (nearestEven (inUnits num den e).1 (inUnits num den e).2, e)
    limited negative m e) = limited negative m' e'
  generalize nearestEven (inUnits num den e).1 (inUnits num den e).2 = m at low high odd ⊢
  by_cases carried : m = Nat.pow 2 53
  next =>
    rw [if_pos carried]
    refine ⟨2 ^ 52, e + 1, ⟨by omega, by norm_num, .inl le_rfl⟩, ?_, rfl⟩
    have halves : (num : ℚ) / den / 2 ^ (e + 1) = num / den / 2 ^ e / 2 := by
      rw [zpow_add_one₀ (by norm_num), div_div _ _ (2 : ℚ)]
    rw [RoundsTo, contains_even (by norm_num), quarters_eq, halves, interval_low_full (by omega)]
    rw [carried, Nat.pow_eq] at low
    push_cast at low ⊢
    constructor <;> linarith
  next =>
    rw [if_neg carried]
    have most : m ≤ 2 ^ 53 := by
      have bound : (m : ℚ) < (2 ^ 53 + 1 : Nat) := by
        push_cast
        linarith
      exact Nat.lt_succ_iff.1 (by exact_mod_cast bound)
    refine ⟨m, e, ⟨least, lt_of_le_of_ne most carried, full.imp_left fun full => ?_⟩, ?_, rfl⟩
    · have bound : ((2 ^ 52 : Nat) : ℚ) < (m + 1 : Nat) := by
        push_cast
        linarith
      exact Nat.lt_succ_iff.1 (by exact_mod_cast bound)
    · rw [RoundsTo, quarters_eq]
      refine contains_near (by positivity) (by linarith) (by linarith)
        (fun isOdd => ⟨by linarith [(odd isOdd).1], by linarith [(odd isOdd).2]⟩)
        fun first beyond => ?_
      have full := full.resolve_right beyond.ne'
      rw [first]
      push_cast
      linarith

end Round

section Decimal

variable {m : Nat} {e : Int} {q : ℚ} (normal : Normal m e) (rounds : RoundsTo m e q)
include normal rounds

theorem RoundsTo.exponent_gt_iff : greatestExponent < e ↔ (2 ^ 54 - 1) * 2 ^ 970 ≤ q := by
  constructor
  · intro beyond
    have above := rounds.above normal (lt_trans (by decide) beyond)
    rw [le_div_iff₀ (two_zpow_pos _)] at above
    have step : (2 : ℚ) ^ 970 ≤ 2 ^ (e - 2) := by
      rw [← zpow_natCast]
      exact zpow_le_zpow_right₀ (by norm_num) (by simp only [greatestExponent] at beyond; omega)
    exact (mul_le_mul_of_nonneg_left step (by norm_num)).trans above
  · intro reached
    by_contra within
    have below := rounds.below normal
    rw [div_lt_iff₀ (two_zpow_pos _)] at below
    have step : (2 : ℚ) ^ (e - 2) ≤ 2 ^ 969 := by
      rw [← zpow_natCast]
      exact zpow_le_zpow_right₀ (by norm_num) (by simp only [greatestExponent] at within; omega)
    have scaled := mul_le_mul_of_nonneg_left step (by norm_num : (0 : ℚ) ≤ 2 ^ 55 - 2)
    rw [pow_succ _ 969] at reached
    generalize (2 : ℚ) ^ 969 = step at reached scaled
    linarith

theorem RoundsTo.eq_zero (positive : 0 ≤ q) (tiny : q ≤ 2 ^ (-1075 : Int)) :
    m = 0 ∧ e = leastExponent := by
  have zero : RoundsTo 0 leastExponent q := by
    rw [RoundsTo, contains_even (by norm_num), div_le_iff₀ (two_zpow_pos _)]
    refine ⟨div_nonneg (by simpa [interval] using positive) (two_zpow_pos _).le, tiny.trans_eq ?_⟩
    have half : (-1075 : Int) = 1 + (leastExponent - 2) := rfl
    rw [half, zpow_one_add₀ (by norm_num)]
    norm_num
  exact RoundsTo.unique roundsTo_zero.1 normal zero rounds

end Decimal

theorem digitCount_pos (n : Nat) : 0 < digitCount n := Nat.length_toDigits_pos

theorem digitCount_bounds {n : Nat} (counted : 0 < n) :
    10 ^ (digitCount n - 1) ≤ n ∧ n < 10 ^ digitCount n := by
  refine ⟨?_, (Nat.length_toDigits_le_iff (by norm_num) (digitCount_pos n)).1 le_rfl⟩
  by_contra less
  rcases Nat.eq_zero_or_pos (digitCount n - 1) with none | more
  · rw [none] at less
    omega
  · have fewer := (Nat.length_toDigits_le_iff (by norm_num) more).2 (not_le.1 less)
    rw [← digitCount] at fewer
    omega

theorem decimal_bounds {n : Nat} (counted : 0 < n) (power : Int) :
    (10 : ℚ) ^ ((digitCount n : Int) + power - 1) ≤ n * 10 ^ power ∧
      (n : ℚ) * 10 ^ power < 10 ^ ((digitCount n : Int) + power) := by
  have scale : (0 : ℚ) < 10 ^ power := zpow_pos (by norm_num) power
  have positive := digitCount_pos n
  obtain ⟨low, high⟩ := digitCount_bounds counted
  constructor
  · have first : (digitCount n : Int) + power - 1 = (digitCount n - 1 : Nat) + power := by omega
    rw [first, zpow_add₀ (by norm_num), zpow_natCast]
    exact mul_le_mul_of_nonneg_right (by exact_mod_cast low) scale.le
  · rw [zpow_add₀ (by norm_num), zpow_natCast]
    exact mul_lt_mul_of_pos_right (by exact_mod_cast high) scale

theorem exists_round_decimal (negative : Bool) (digits : Nat) (power : Int) :
    ∃ m e, Normal m e ∧ RoundsTo m e (digits * 10 ^ power) ∧
      (if 0 ≤ power then round negative (digits * Nat.pow 10 power.toNat) 1
        else round negative digits (Nat.pow 10 (-power).toNat)) = limited negative m e := by
  by_cases whole : 0 ≤ power
  next =>
    obtain ⟨k, rfl⟩ := Int.eq_ofNat_of_zero_le whole
    obtain ⟨m, e, normal, rounds, rounded⟩ := exists_round negative (digits * 10 ^ k) one_pos
    refine ⟨m, e, normal, ?_, by rw [if_pos whole]; exact rounded⟩
    push_cast at rounds
    rwa [div_one, ← zpow_natCast] at rounds
  next =>
    obtain ⟨k, same⟩ : ∃ k : Nat, -power = k := ⟨(-power).toNat, by omega⟩
    have unit : 0 < 10 ^ k := by positivity
    obtain ⟨m, e, normal, rounds, rounded⟩ := exists_round negative digits unit
    have opposite : power = -(k : Int) := by omega
    refine ⟨m, e, normal, ?_, by rw [if_neg whole, same]; exact rounded⟩
    push_cast at rounds
    rwa [opposite, zpow_neg, zpow_natCast, ← div_eq_mul_inv]

theorem ten_pow_310 : 2 ^ 1024 ≤ 10 ^ 310 := by decide +kernel

theorem ten_pow_330 : 2 ^ 1075 ≤ 10 ^ 330 := by decide +kernel

theorem exists_ofDecimal (negative : Bool) (digits : Nat) (power : Int) :
    ∃ m e, Normal m e ∧ RoundsTo m e (digits * 10 ^ power) ∧
      ofDecimal negative digits power = limited negative m e := by
  obtain ⟨m, e, normal, rounds, rounded⟩ := exists_round_decimal negative digits power
  refine ⟨m, e, normal, rounds, ?_⟩
  have scale : (0 : ℚ) < 10 ^ power := zpow_pos (by norm_num) power
  rw [ofDecimal]
  split
  next small =>
    have tiny : (digits : ℚ) * 10 ^ power ≤ 2 ^ (-1075 : Int) := by
      rcases Nat.eq_zero_or_pos digits with rfl | counted
      · simp
      have small : (digitCount digits : Int) + power < -330 := by
        simpa [counted.ne'] using small
      calc (digits : ℚ) * 10 ^ power ≤ 10 ^ ((digitCount digits : Int) + power) :=
            (decimal_bounds counted power).2.le
        _ ≤ 10 ^ (-330 : Int) := zpow_le_zpow_right₀ (by norm_num) small.le
        _ ≤ 2 ^ (-1075 : Int) := by
            rw [zpow_neg, zpow_neg, inv_le_inv₀ (by positivity) (by positivity)]
            exact_mod_cast ten_pow_330
    obtain ⟨rfl, rfl⟩ := rounds.eq_zero normal (by positivity) tiny
    rfl
  next small =>
    split
    next large =>
      have counted : 0 < digits := Nat.pos_of_ne_zero fun none => small (by simp [none])
      have huge : (2 ^ 54 - 1) * 2 ^ 970 ≤ (digits : ℚ) * 10 ^ power := by
        calc ((2 : ℚ) ^ 54 - 1) * 2 ^ 970 ≤ 2 ^ 54 * 2 ^ 970 := by gcongr; linarith
          _ = 2 ^ 1024 := (pow_add 2 54 970).symm
          _ ≤ 10 ^ (310 : Int) := by exact_mod_cast ten_pow_310
          _ ≤ 10 ^ ((digitCount digits : Int) + power - 1) :=
            zpow_le_zpow_right₀ (by norm_num) (by omega)
          _ ≤ digits * 10 ^ power := (decimal_bounds counted power).1
      rw [limited, if_pos ((rounds.exponent_gt_iff normal).2 huge)]
    next => exact rounded

theorem RoundsTo.ofDecimal_eq {m digits : Nat} {e power : Int} (normal : Normal m e)
    (rounds : RoundsTo m e (digits * 10 ^ power)) (negative : Bool) :
    ofDecimal negative digits power = limited negative m e := by
  obtain ⟨n, f, other, second, read⟩ := exists_ofDecimal negative digits power
  obtain ⟨rfl, rfl⟩ := rounds.unique normal other second
  exact read

end Docspec.Double
