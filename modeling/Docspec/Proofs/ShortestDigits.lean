import Docspec.Proofs.Rounding

set_option autoImplicit false

namespace Docspec.Double

section Grid

variable {m n : Nat} {e p : Int}

def gridStep (e p : Int) : Nat := Nat.pow 10 p.toNat * Nat.pow 2 (-(e - 2)).toNat

def gridUnit (e p : Int) : Nat := Nat.pow 2 (e - 2).toNat * Nat.pow 10 (-p).toNat

theorem zpow_parts {b : ℚ} (positive : 0 < b) (k : Int) : b ^ k.toNat / b ^ (-k).toNat = b ^ k := by
  rw [← zpow_natCast, ← zpow_natCast, ← zpow_sub₀ positive.ne']
  congr 1
  omega

theorem gridUnit_pos : 0 < gridUnit e p :=
  Nat.mul_pos (Nat.pow_pos (by norm_num)) (Nat.pow_pos (by norm_num))

theorem gridStep_pos : 0 < gridStep e p :=
  Nat.mul_pos (Nat.pow_pos (by norm_num)) (Nat.pow_pos (by norm_num))

theorem grid_eq (n : Nat) :
    ((n * gridStep e p : Nat) : ℚ) / (gridUnit e p : Nat) = n * 10 ^ p / 2 ^ (e - 2) := by
  have two := zpow_parts (b := 2) (by norm_num) (e - 2)
  have ten := zpow_parts (b := 10) (by norm_num) p
  rw [← two, ← ten, gridStep, gridUnit]
  push_cast [Nat.pow_eq]
  field_simp

theorem holds_iff (i : Interval) :
    i.holds (gridStep e p) (gridUnit e p) n = true ↔ i.Contains (n * 10 ^ p / 2 ^ (e - 2)) := by
  have unit : (0 : ℚ) < (gridUnit e p : Nat) := by exact_mod_cast gridUnit_pos
  rw [← grid_eq, Interval.holds, Interval.Contains]
  split
  · rw [le_div_iff₀ unit, div_le_iff₀ unit, Bool.and_eq_true, decide_eq_true_eq, decide_eq_true_eq]
    norm_cast
  · rw [lt_div_iff₀ unit, div_lt_iff₀ unit, Bool.and_eq_true, decide_eq_true_eq, decide_eq_true_eq]
    norm_cast

def gridBelow (m : Nat) (e p : Int) : Nat := (interval m e).middle * gridUnit e p / gridStep e p

theorem onGrid?_eq (m : Nat) (e p : Int) :
    onGrid? (interval m e) e p =
      match (interval m e).holds (gridStep e p) (gridUnit e p) (gridBelow m e p),
        (interval m e).holds (gridStep e p) (gridUnit e p) (gridBelow m e p + 1) with
      | true, true =>
        if 2 * ((interval m e).middle * gridUnit e p) <
          (gridBelow m e p + (gridBelow m e p + 1)) * gridStep e p then some (gridBelow m e p)
        else some (gridBelow m e p + 1)
      | true, false => some (gridBelow m e p)
      | false, true => some (gridBelow m e p + 1)
      | false, false => none := rfl

theorem onGrid?_sound (found : onGrid? (interval m e) e p = some n) :
    RoundsTo m e (n * 10 ^ p) := by
  rw [onGrid?_eq] at found
  rw [RoundsTo, ← holds_iff]
  split at found
  next below above =>
    split at found <;> cases found
    · exact below
    · exact above
  next below _ =>
    cases found
    exact below
  next _ above =>
    cases found
    exact above
  next => cases found

theorem onGrid?_isSome (held : RoundsTo m e (gridBelow m e p * 10 ^ p) ∨
    RoundsTo m e ((gridBelow m e p + 1 : Nat) * 10 ^ p)) :
    ∃ n, onGrid? (interval m e) e p = some n := by
  rw [RoundsTo, RoundsTo, ← holds_iff, ← holds_iff] at held
  rw [onGrid?_eq]
  split
  next => split <;> exact ⟨_, rfl⟩
  next => exact ⟨_, rfl⟩
  next => exact ⟨_, rfl⟩
  next below above => simp [below, above] at held

theorem gridBelow_bounds : (gridBelow m e p : ℚ) * 10 ^ p / 2 ^ (e - 2) ≤ 4 * m ∧
    4 * (m : ℚ) < (gridBelow m e p + 1 : Nat) * 10 ^ p / 2 ^ (e - 2) := by
  have unit : (0 : ℚ) < (gridUnit e p : Nat) := by exact_mod_cast gridUnit_pos
  have below : gridBelow m e p * gridStep e p ≤ 4 * m * gridUnit e p := Nat.div_mul_le_self _ _
  have above : 4 * m * gridUnit e p < (gridBelow m e p + 1) * gridStep e p := by
    have step := Nat.lt_div_mul_add (a := 4 * m * gridUnit e p) (gridStep_pos (e := e) (p := p))
    rw [Nat.add_mul, Nat.one_mul]
    exact step
  rw [← grid_eq, ← grid_eq, div_le_iff₀ unit, lt_div_iff₀ unit]
  exact ⟨by exact_mod_cast below, by exact_mod_cast above⟩

theorem contains_middle (counted : 0 < m) : (interval m e).Contains (4 * m) := by
  have positive : (0 : ℚ) < m := by exact_mod_cast counted
  exact contains_near (by positivity) (by linarith) (by linarith)
    (fun _ => ⟨by linarith, by linarith⟩) fun _ _ => le_rfl

-- Any other multiple in the interval is on the far side of one next to the number.
theorem onGrid?_complete (counted : 0 < m) (held : RoundsTo m e (n * 10 ^ p)) :
    ∃ d, onGrid? (interval m e) e p = some d := by
  obtain ⟨below, above⟩ := gridBelow_bounds (m := m) (e := e) (p := p)
  have middle := contains_middle (e := e) counted
  have ten : (0 : ℚ) < 10 ^ p := zpow_pos (by norm_num) p
  have two := two_zpow_pos (e - 2)
  rcases Nat.lt_or_ge (gridBelow m e p) n with more | less
  · have beyond : ((gridBelow m e p + 1 : Nat) : ℚ) ≤ n := by exact_mod_cast more
    exact onGrid?_isSome (.inr (middle.convex held above.le (by gcongr)))
  · have within : (n : ℚ) ≤ gridBelow m e p := by exact_mod_cast less
    exact onGrid?_isSome (.inl (held.convex middle (by gcongr) below))

theorem exists_fine (counted : 0 < m) (fine : (10 : ℚ) ^ p < 2 ^ (e - 1)) :
    ∃ n : Nat, RoundsTo m e (n * 10 ^ p) := by
  obtain ⟨below, above⟩ := gridBelow_bounds (m := m) (e := e) (p := p)
  have positive : (0 : ℚ) < m := by exact_mod_cast counted
  have two := two_zpow_pos (e - 2)
  have step : (10 : ℚ) ^ p / 2 ^ (e - 2) < 2 := by
    have half : 1 + (e - 2) = e - 1 := by omega
    rwa [div_lt_iff₀ two, ← zpow_one_add₀ (by norm_num), half]
  have next : ((gridBelow m e p + 1 : Nat) : ℚ) * 10 ^ p / 2 ^ (e - 2) =
      gridBelow m e p * 10 ^ p / 2 ^ (e - 2) + 10 ^ p / 2 ^ (e - 2) := by
    push_cast
    ring
  refine ⟨gridBelow m e p + 1, contains_near ?_ ?_ ?_ (fun _ => ⟨?_, ?_⟩) fun _ _ => above.le⟩ <;>
    linarith

end Grid

section Shortest

def tenPower (k : Int) : Int := k * 30103 / 100000

theorem powers_up : ∀ k < 1100, 10 ^ (k * 30103 / 100000) ≤ 2 ^ (k + 1) ∧
    2 ^ k ≤ 10 ^ (k * 30103 / 100000 + 1) := by decide +kernel

theorem powers_down : ∀ k < 1100, 2 ^ k ≤ 2 * 10 ^ ((k * 30103 + 99999) / 100000) ∧
    10 ^ ((k * 30103 + 99999) / 100000) ≤ 10 * 2 ^ k := by decide +kernel

theorem tenPower_bounds {k : Int} (low : -1100 < k) (high : k < 1100) :
    (10 : ℚ) ^ tenPower k ≤ 2 ^ (k + 1) ∧ (2 : ℚ) ^ k ≤ 10 ^ (tenPower k + 1) := by
  rcases Int.le_total 0 k with up | down
  · obtain ⟨n, rfl⟩ := Int.eq_ofNat_of_zero_le up
    obtain ⟨first, second⟩ := powers_up n (by omega)
    have power : tenPower n = (n * 30103 / 100000 : Nat) := by
      simp [tenPower]
    rw [power, zpow_natCast, zpow_natCast, ← Nat.cast_succ, ← Nat.cast_succ, zpow_natCast,
      zpow_natCast]
    generalize n * 30103 / 100000 = t at first second
    exact ⟨by exact_mod_cast first, by exact_mod_cast second⟩
  · obtain ⟨n, rfl⟩ : ∃ n : Nat, k = -(n : Int) := ⟨(-k).toNat, by omega⟩
    obtain ⟨first, second⟩ := powers_down n (by omega)
    have power : tenPower (-(n : Int)) = -((n * 30103 + 99999) / 100000 : Nat) := by
      simp only [tenPower]
      omega
    rw [power]
    generalize (n * 30103 + 99999) / 100000 = t at first second
    have first : (2 : ℚ) ^ n ≤ 2 * 10 ^ t := by exact_mod_cast first
    have second : (10 : ℚ) ^ t ≤ 10 * 2 ^ n := by exact_mod_cast second
    rw [zpow_add_one₀ (by norm_num), zpow_add_one₀ (by norm_num), zpow_neg, zpow_neg, zpow_natCast,
      zpow_natCast]
    constructor
    · rw [inv_mul_eq_div, le_div_iff₀ (by positivity), inv_mul_le_iff₀ (by positivity)]
      linarith
    · rw [inv_mul_eq_div, le_div_iff₀ (by positivity), inv_mul_le_iff₀ (by positivity)]
      linarith

theorem findSome?_range {β : Type} {f : Nat → Option β} {n k : Nat} {b : β} (within : k < n)
    (serves : f k = some b) :
    ∃ j b', j ≤ k ∧ (List.range n).findSome? f = some b' ∧ f j = some b' ∧ ∀ i < j, f i = none := by
  have served : ∃ i, (f i).isSome := ⟨k, by simp [serves]⟩
  have least : Nat.find served ≤ k := Nat.find_min' served (by simp [serves])
  obtain ⟨b', found⟩ := Option.isSome_iff_exists.1 (Nat.find_spec served)
  have before : ∀ i < Nat.find served, f i = none := fun i less =>
    Option.not_isSome_iff_eq_none.1 (Nat.find_min served less)
  generalize Nat.find served = j at least found before
  refine ⟨j, b', least, ?_, found, before⟩
  have parts : n = j + ((n - j - 1) + 1) := by omega
  rw [parts, List.range_add, List.findSome?_append, List.findSome?_eq_none_iff.2
    fun i member => before i (List.mem_range.1 member), Option.none_or, List.range_succ_eq_map]
  simp [found]

variable {m : Nat} {e : Int} (normal : Normal m e) (within : e ≤ greatestExponent) (counted : 0 < m)

include counted in
theorem RoundsTo.positive {n : Nat} {p : Int} (held : RoundsTo m e (n * 10 ^ p)) : 0 < n := by
  by_contra none
  obtain rfl : n = 0 := by omega
  have low : 1 ≤ (interval m e).low := by
    simp only [interval]
    split <;> omega
  have low : (1 : ℚ) ≤ (interval m e).low := by exact_mod_cast low
  have bound := (contains_bounds held).1
  rw [Nat.cast_zero, zero_mul, zero_div] at bound
  linarith

theorem RoundsTo.lt_length {q : ℚ} (held : RoundsTo m e q) : q < 2 ^ ((m.log2 : Int) + e + 1) := by
  have bound := (contains_bounds held).2
  rw [div_le_iff₀ (two_zpow_pos _)] at bound
  have length : m + 1 ≤ 2 ^ (m.log2 + 1) := Nat.lt_log2_self
  have length : (m : ℚ) + 1 ≤ 2 ^ (m.log2 + 1) := by exact_mod_cast length
  have parts : (2 : ℚ) ^ ((m.log2 : Int) + e + 1) = 2 ^ (m.log2 + 1) * (4 * 2 ^ (e - 2)) := by
    rw [← zpow_natCast, show (4 : ℚ) = 2 ^ (2 : Int) by norm_num, ← zpow_add₀ (by norm_num),
      ← zpow_add₀ (by norm_num)]
    congr 1
    push_cast
    ring
  have scale := two_zpow_pos (e - 2)
  calc q ≤ (4 * m + 2) * 2 ^ (e - 2) := bound
    _ < (m + 1) * (4 * 2 ^ (e - 2)) := by linarith
    _ ≤ 2 ^ (m.log2 + 1) * (4 * 2 ^ (e - 2)) := by gcongr
    _ = _ := parts.symm

include normal within counted

theorem length_bounds : (m.log2 : Int) ≤ 52 ∧ -1100 < (m.log2 : Int) + e + 1 ∧
    (m.log2 : Int) + e + 1 < 1100 := by
  have short : m.log2 < 53 := (Nat.log2_lt counted.ne').2 normal.short
  have least := normal.least
  simp only [leastExponent] at least
  simp only [greatestExponent] at within
  omega

theorem powerAbove_spec : (2 : ℚ) ^ ((m.log2 : Int) + e + 1) ≤ 10 ^ powerAbove m e ∧
    (10 : ℚ) ^ (powerAbove m e - 23) < 2 ^ (e - 1) := by
  obtain ⟨short, low, high⟩ := length_bounds normal within counted
  obtain ⟨below, above⟩ := tenPower_bounds low high
  refine ⟨above, ?_⟩
  have parts : powerAbove m e - 23 = tenPower ((m.log2 : Int) + e + 1) + (-22 : Int) := by
    simp only [powerAbove, tenPower]
    omega
  have scale := two_zpow_pos (e - 1)
  rw [parts, zpow_add₀ (by norm_num)]
  calc (10 : ℚ) ^ tenPower ((m.log2 : Int) + e + 1) * 10 ^ (-22 : Int)
      ≤ 2 ^ ((m.log2 : Int) + e + 1 + 1) * 10 ^ (-22 : Int) := by gcongr
    _ ≤ 2 ^ (55 + (e - 1)) * 10 ^ (-22 : Int) :=
        mul_le_mul_of_nonneg_right (zpow_le_zpow_right₀ (by norm_num) (by omega)) (by positivity)
    _ = 2 ^ (e - 1) * (2 ^ (55 : Int) * 10 ^ (-22 : Int)) := by
        rw [zpow_add₀ (by norm_num)]
        ring
    _ < 2 ^ (e - 1) := by
        have small : (2 : ℚ) ^ (55 : Int) * 10 ^ (-22 : Int) < 1 := by norm_num
        exact mul_lt_of_lt_one_right scale small

theorem shortest_spec :
    RoundsTo m e ((shortest m e).1 * 10 ^ (shortest m e).2) ∧
      ∀ {n : Nat} {p : Int}, RoundsTo m e (n * 10 ^ p) → p ≤ (shortest m e).2 := by
  obtain ⟨above, fine⟩ := powerAbove_spec normal within counted
  obtain ⟨k, held⟩ := exists_fine counted fine
  obtain ⟨d, onGrid⟩ := onGrid?_complete counted held
  let attempt (n : Nat) : Option (Nat × Int) :=
    (onGrid? (interval m e) e (powerAbove m e - n)).map fun digits => (digits, powerAbove m e - n)
  have serves : attempt 23 = some (d, powerAbove m e - 23) := by
    change (onGrid? (interval m e) e (powerAbove m e - 23)).map _ = _
    rw [onGrid]
    rfl
  obtain ⟨j, hit, -, found, own, before⟩ := findSome?_range (by norm_num : 23 < 24) serves
  have result : shortest m e = hit := by
    change ((List.range 24).findSome? attempt).getD (0, 0) = hit
    rw [found]
    rfl
  obtain ⟨digits, grid, rfl⟩ := Option.map_eq_some_iff.1 own
  rw [result]
  refine ⟨onGrid?_sound grid, fun {n p} other => ?_⟩
  by_contra greater
  -- A greater power is among those tried before, or beyond the number.
  have positive : (1 : ℚ) ≤ n := by exact_mod_cast other.positive counted
  have ten : (0 : ℚ) < 10 ^ p := zpow_pos (by norm_num) p
  have less : (10 : ℚ) ^ p < 10 ^ powerAbove m e :=
    calc (10 : ℚ) ^ p ≤ n * 10 ^ p := le_mul_of_one_le_left ten.le positive
      _ < 2 ^ ((m.log2 : Int) + e + 1) := other.lt_length
      _ ≤ 10 ^ powerAbove m e := above
  have less : p < powerAbove m e := (zpow_lt_zpow_iff_right₀ (by norm_num)).1 less
  obtain ⟨i, rfl⟩ : ∃ i : Nat, p = powerAbove m e - i := ⟨(powerAbove m e - p).toNat, by omega⟩
  obtain ⟨d', onGrid'⟩ := onGrid?_complete counted other
  have tried : attempt i = none := before i (by simp only at greater; omega)
  change (onGrid? (interval m e) e (powerAbove m e - i)).map _ = none at tried
  rw [onGrid'] at tried
  cases tried

end Shortest

section Whole

theorem cast_mul_ten_pow (n k : Nat) : ((n * 10 ^ k : Nat) : ℚ) = n * 10 ^ (k : Int) := by
  push_cast
  rw [zpow_natCast]

theorem ofNat_shift {d : Nat} (counted : 0 < d) (k : Nat) :
    Text.ofNat (d * 10 ^ k) = Text.ofNat d ++ List.replicate k '0' := by
  induction k with
  | zero => simp
  | succ k ih =>
    have positive : 0 < d * 10 ^ k := Nat.mul_pos counted (by positivity)
    have next : Text.ofNat (10 * (d * 10 ^ k) + 0) = Text.ofNat (d * 10 ^ k) ++ ['0'] :=
      (Nat.toDigits_append_toDigits (by norm_num) positive (by norm_num)).symm
    have shifted : d * 10 ^ (k + 1) = 10 * (d * 10 ^ k) + 0 := by ring
    rw [shifted, next, ih, List.append_assoc, List.replicate_succ']

theorem positional_whole {d : Nat} (counted : 0 < d) (k : Nat) :
    positional d k = Text.ofNat (d * 10 ^ k) := by
  rw [positional, if_pos (Int.natCast_nonneg k), ofNat_shift counted]
  rfl

theorem plain_eq (negative : Bool) {m : Nat} (counted : 0 < m) (e : Int) :
    (finite negative m e).plain =
      signed negative (positional (shortest m e).1 (shortest m e).2) := by
  cases m with
  | zero => omega
  | succ m => rfl

variable {m : Nat} {e : Int} (normal : Normal m e) (within : e ≤ greatestExponent) (large : 2 ≤ e)
include normal within large

theorem display_large (negative : Bool) :
    ∃ d k : Nat, (finite negative m e).display = signed negative (Text.ofNat (d * 10 ^ k)) ∧
      RoundsTo m e (d * 10 ^ k : Nat) ∧
      ∀ {n p : Nat}, RoundsTo m e (n * 10 ^ p : Nat) → p ≤ k := by
  have full : 2 ^ 52 ≤ m := normal.full.resolve_right (by simp only [leastExponent]; omega)
  have counted : 0 < m := by omega
  obtain ⟨rounds, greatest⟩ := shortest_spec normal within counted
  have fine : (10 : ℚ) ^ (0 : Int) < 2 ^ (e - 1) := by
    rw [zpow_zero]
    exact one_lt_zpow₀ (by norm_num) (by omega)
  obtain ⟨n, unit⟩ := exists_fine counted fine
  obtain ⟨k, power⟩ := Int.eq_ofNat_of_zero_le (greatest unit)
  have shown : (finite negative m e).display = (finite negative m e).plain := by
    obtain ⟨j, rfl⟩ : ∃ j : Nat, e = j := ⟨e.toNat, by omega⟩
    have whole : (finite negative m j).wholePart? = some (m * 2 ^ j) := by
      rw [wholePart?, if_pos (by omega)]
      rfl
    have long : ¬ m * 2 ^ j < Nat.pow 10 15 := by
      have power : 1 ≤ 2 ^ j := Nat.one_le_two_pow
      have bound : m * 1 ≤ m * 2 ^ j := Nat.mul_le_mul_left m power
      rw [Nat.pow_eq]
      omega
    rw [display, whole]
    exact if_neg long
  have digits := rounds.positive counted
  rw [power] at rounds
  refine ⟨(shortest m e).1, k, ?_, ?_, fun {n p} other => ?_⟩
  · rw [shown, plain_eq negative counted, power, positional_whole digits]
  · rwa [cast_mul_ten_pow]
  · rw [cast_mul_ten_pow] at other
    exact_mod_cast power ▸ greatest other

end Whole

section Read

/-- Of the whole numbers that are read as one number, one that ends in as many zeros as any. -/
def Shortens (negative : Bool) (n short : Nat) : Prop :=
  ofDecimal negative short 0 = ofDecimal negative n 0 ∧
    ∃ k, 10 ^ k ∣ short ∧
      ∀ other j, ofDecimal negative other 0 = ofDecimal negative n 0 → 10 ^ j ∣ other → j ≤ k

theorem limited_eq_finite {negative : Bool} {m n : Nat} {e f : Int}
    (same : limited negative n f = finite negative m e) : n = m ∧ f = e ∧ e ≤ greatestExponent := by
  rw [limited] at same
  split at same
  next => cases same
  next within =>
    cases same
    exact ⟨rfl, rfl, not_lt.1 within⟩

theorem roundsTo_of_ofDecimal {negative : Bool} {digits m : Nat} {power e : Int}
    (read : ofDecimal negative digits power = finite negative m e) :
    RoundsTo m e (digits * 10 ^ power) := by
  obtain ⟨n, f, -, rounds, limit⟩ := exists_ofDecimal negative digits power
  obtain ⟨rfl, rfl, -⟩ := limited_eq_finite (limit.symm.trans read)
  exact rounds

def firstInfinite : Nat := (2 ^ 54 - 1) * 2 ^ 970

theorem ten_zpow_zero (n : Nat) : (n : ℚ) * 10 ^ (0 : Int) = n := by rw [zpow_zero, mul_one]

theorem ofDecimal_infinite {n : Nat} (reached : firstInfinite ≤ n) (negative : Bool) :
    ofDecimal negative n 0 = infinite negative := by
  obtain ⟨m, e, normal, rounds, read⟩ := exists_ofDecimal negative n 0
  have bound : ((firstInfinite : Nat) : ℚ) ≤ n := Nat.cast_le.2 reached
  rw [firstInfinite, Nat.cast_mul, Nat.cast_pow] at bound
  have beyond : greatestExponent < e := by
    rw [rounds.exponent_gt_iff normal, ten_zpow_zero]
    exact bound.trans_eq' (by norm_num)
  rw [read, limited, if_pos beyond]

theorem ofDecimal_long {n : Nat} (long : 2 ^ 63 ≤ n) (within : n < firstInfinite)
    (negative : Bool) :
    ∃ short, (ofDecimal negative n 0).display = signed negative (Text.ofNat short) ∧
      Shortens negative n short := by
  obtain ⟨m, e, normal, rounds, read⟩ := exists_ofDecimal negative n 0
  have within : e ≤ greatestExponent := by
    by_contra beyond
    rw [not_le, rounds.exponent_gt_iff normal, ten_zpow_zero] at beyond
    have bound : (n : ℚ) < (firstInfinite : Nat) := Nat.cast_lt.2 within
    rw [firstInfinite, Nat.cast_mul, Nat.cast_pow] at bound
    exact absurd (bound.trans_eq (by norm_num)) (not_lt.2 beyond)
  have large : 2 ≤ e := by
    by_contra small
    have below := rounds.below normal
    rw [ten_zpow_zero, div_lt_iff₀ (two_zpow_pos _)] at below
    have unit : (2 : ℚ) ^ (e - 2) ≤ 1 := zpow_le_one_of_nonpos₀ (by norm_num) (by omega)
    have bound : ((2 ^ 63 : Nat) : ℚ) ≤ n := Nat.cast_le.2 long
    push_cast at bound
    linarith
  rw [limited, if_neg (not_lt.2 within)] at read
  obtain ⟨d, k, shown, same, greatest⟩ := display_large normal within large negative
  rw [← ten_zpow_zero] at same
  have again := same.ofDecimal_eq normal negative
  rw [limited, if_neg (not_lt.2 within)] at again
  refine ⟨d * 10 ^ k, by rw [read, shown], again.trans read.symm, k, Nat.dvd_mul_left _ _,
    fun other j also power => ?_⟩
  obtain ⟨r, rfl⟩ := power
  have held := roundsTo_of_ofDecimal (also.trans read)
  rw [ten_zpow_zero, Nat.mul_comm] at held
  exact greatest held

end Read

end Docspec.Double
