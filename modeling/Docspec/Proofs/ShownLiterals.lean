import Docspec.Proofs.Literals

set_option autoImplicit false

namespace Docspec

open Text

namespace Text

theorem ofNat_head {n : Nat} (counted : 0 < n) : ∃ c t, ofNat n = c :: t ∧ c ≠ '0' := by
  induction n using Nat.strongRecOn with
  | ind n ih =>
    by_cases short : n < 10
    next =>
      refine ⟨n.digitChar, [], Nat.toDigits_of_lt_base short, fun zero => ?_⟩
      have code := congrArg Char.toNat zero
      rw [Nat.toNat_digitChar_of_lt_ten short] at code
      change 48 + n = 48 at code
      omega
    next =>
      obtain ⟨c, t, shape, nonzero⟩ := ih (n / 10) (by omega) (by omega)
      refine ⟨c, t ++ [(n % 10).digitChar], ?_, nonzero⟩
      rw [ofNat, Nat.toDigits_of_base_le (by norm_num) (by omega), ← List.cons_append, ← shape]
      rfl

theorem head_ofNat (n : Nat) : ∃ c t, ofNat n = c :: t ∧ (c ≠ '0' ∨ t = []) := by
  rcases Nat.eq_zero_or_pos n with rfl | counted
  · exact ⟨'0', [], rfl, .inr rfl⟩
  · obtain ⟨c, t, shape, nonzero⟩ := ofNat_head counted
    exact ⟨c, t, shape, .inl nonzero⟩

end Text

namespace Decimal

section Pointed

variable (negative : Bool) (w : Nat) {back : Text} (digits : Digits back)
include digits

theorem readDouble?_pointed : readDouble? (Double.signed negative (ofNat w ++ '.' :: back)) =
    some (Double.ofDecimal negative (Nat.ofDigitChars 10 (ofNat w ++ back) 0) (-back.length)) := by
  have front : Digits (ofNat w) := digits_ofNat w
  obtain ⟨c, t, shape, -⟩ := head_ofNat w
  have bare : ∀ d ∈ (ofNat w ++ '.' :: back).head?, d ≠ '+' ∧ d ≠ '-' := by
    rw [shape] at front ⊢
    exact bare_digits (t := c :: t) front
  have number : asciiLower (ofNat w ++ '.' :: (back ++ [])) ∉ words := fun word => by
    have letter := letter_of_word word (List.mem_append_right _ List.mem_cons_self)
    exact absurd letter (by decide)
  have whole : digits? (ofNat w ++ back) = some (Nat.ofDigitChars 10 (ofNat w ++ back) 0) := by
    have all : (ofNat w ++ back).all isDigit = true :=
      List.all_eq_true.2 (List.forall_mem_append.2 ⟨front, digits⟩)
    have nonempty : (ofNat w ++ back).isEmpty = false := by simp [shape]
    rw [digits?, all, nonempty]
    rfl
  have broken := readUnsigned?_broken negative front digits (by simp) number
  rw [List.append_nil, whole] at broken
  rw [readDouble?_eq, takeSign_of_bare bare, broken]
  simp [readPower?]

theorem literalOf?_pointed :
    Argument.literalOf? (Double.signed negative (ofNat w ++ '.' :: back)) = some
      (.float (Double.ofDecimal negative (Nat.ofDigitChars 10 (ofNat w ++ back) 0)
        (-back.length))) := by
  have point : '.' ∈ Double.signed negative (ofNat w ++ '.' :: back) := by
    cases negative <;> simp [Double.signed]
  have other {t : Text} (pointless : '.' ∉ t) :
      Double.signed negative (ofNat w ++ '.' :: back) ≠ t := fun same => pointless (same ▸ point)
  have visible :
      Argument.startsWithBareZero (Double.signed negative (ofNat w ++ '.' :: back)) = false := by
    obtain ⟨c, t, shape, nonzero | single⟩ := head_ofNat w
    · cases negative <;> cases t <;>
        simp [Double.signed, shape, Argument.startsWithBareZero, nonzero]
    · cases negative <;> by_cases zero : c = '0' <;>
        simp [Double.signed, shape, single, zero, Argument.startsWithBareZero]
  have broken : readWord? (Double.signed negative (ofNat w ++ '.' :: back)) = none := by
    refine Option.eq_none_iff_forall_not_mem.2 fun n word => ?_
    obtain ⟨sign, whole, shape, signed, -, all⟩ :=
      exists_readInt?_iff.1 ⟨n, (Option.filter_eq_some_iff.1 word).1⟩
    rw [shape] at point
    rcases List.mem_append.1 point with inSign | inDigits
    · rcases signed with rfl | rfl | rfl <;> simp at inSign
    · cases all '.' inDigits
  rw [Argument.literalOf?, if_neg (other (by decide)), if_neg (other (by decide)), visible, broken,
    readDouble?_pointed negative w digits]
  rfl

end Pointed

end Decimal

namespace Double

section Display

variable {m : Nat} {e : Int}

theorem RoundsTo.convex {p q r : ℚ} (first : RoundsTo m e p) (last : RoundsTo m e r)
    (above : p ≤ q) (below : q ≤ r) : RoundsTo m e q := by
  have unit := two_zpow_pos (e - 2)
  refine Interval.Contains.convex first last ?_ ?_ <;> gcongr

theorem wholePart?_of_eq {negative : Bool} {n : Nat} (same : (m : ℚ) * 2 ^ e = n) :
    (finite negative m e).wholePart? = some n := by
  rw [wholePart?]
  split
  next large =>
    obtain ⟨k, rfl⟩ := Int.eq_ofNat_of_zero_le large
    rw [zpow_natCast] at same
    exact congrArg some (by exact_mod_cast same)
  next small =>
    obtain ⟨k, rfl⟩ : ∃ k : Nat, e = -k := ⟨(-e).toNat, by omega⟩
    have parts : m = n * 2 ^ k := by
      rw [zpow_neg, zpow_natCast, mul_inv_eq_iff_eq_mul₀ (by positivity)] at same
      exact_mod_cast same
    simp [parts]

theorem exists_exact {k : Nat} (counted : 0 < k) (short : k < 2 ^ 53) :
    ∃ m e, Normal m e ∧ (m : ℚ) * 2 ^ e = k := by
  have length : k.log2 < 53 := (Nat.log2_lt counted.ne').2 short
  obtain ⟨j, sum⟩ : ∃ j, k.log2 + j = 52 := ⟨52 - k.log2, by omega⟩
  have low : 2 ^ k.log2 * 2 ^ j ≤ k * 2 ^ j :=
    Nat.mul_le_mul_right _ (Nat.log2_self_le counted.ne')
  have high : k * 2 ^ j < 2 ^ (k.log2 + 1) * 2 ^ j :=
    Nat.mul_lt_mul_of_pos_right Nat.lt_log2_self (by positivity)
  rw [← pow_add, sum] at low
  rw [← pow_add, show k.log2 + 1 + j = 53 by omega] at high
  have least : leastExponent ≤ -(j : Int) := by
    simp only [leastExponent]
    omega
  refine ⟨k * 2 ^ j, -j, ⟨least, high, .inl low⟩, ?_⟩
  rw [zpow_neg, zpow_natCast]
  push_cast
  field_simp

theorem positional_broken {d : Nat} (counted : 0 < d) {p : Int} (broken : p < 0) :
    ∃ w back, positional d p = ofNat w ++ '.' :: back ∧ Decimal.Digits back := by
  have digits := digits_ofNat d
  rw [positional, if_neg (not_le.2 broken)]
  dsimp only
  split
  next inside =>
    obtain ⟨c, t, shape, nonzero⟩ := ofNat_head counted
    obtain ⟨k, more⟩ : ∃ k, (ofNat d).length - (-p).toNat = k + 1 :=
      ⟨(ofNat d).length - (-p).toNat - 1, by omega⟩
    have front : (ofNat d).take ((ofNat d).length - (-p).toNat) = c :: t.take k := by
      rw [more, shape, List.take_succ_cons]
    have member : ∀ x ∈ c :: t.take k, isDigit x = true := fun x inFront =>
      digits x (List.mem_of_mem_take (front ▸ inFront))
    obtain ⟨w, -, spelled⟩ := exists_ofNat nonzero member
    exact ⟨w, _, by rw [front, spelled], fun x inBack => digits x (List.mem_of_mem_drop inBack)⟩
  next =>
    exact ⟨0, List.replicate ((-p).toNat - (ofNat d).length) '0' ++ ofNat d, rfl,
      List.forall_mem_append.2 ⟨digits_replicate _, digits⟩⟩

section Shape

variable (normal : Normal m e) (within : e ≤ greatestExponent)
include normal within

theorem shortest_broken {negative : Bool} (broken : (finite negative m e).wholePart? = none) :
    0 < m ∧ (shortest m e).2 < 0 := by
  have counted : 0 < m := counted_of_wholePart? broken (by simp)
  refine ⟨counted, ?_⟩
  by_contra whole
  obtain ⟨k, power⟩ := Int.eq_ofNat_of_zero_le (not_lt.1 whole)
  have rounds := (shortest_spec normal within counted).1
  have positive : 0 < (shortest m e).1 * 10 ^ k :=
    Nat.mul_pos (rounds.positive counted) (by positivity)
  rw [power, ← cast_mul_ten_pow] at rounds
  have short : (shortest m e).1 * 10 ^ k < 2 ^ 53 := by
    have low : e < 0 := by
      by_contra large
      simp [wholePart?, not_lt.1 large] at broken
    have unit : (2 : ℚ) ^ (e - 2) ≤ 2 ^ (-2 : Int) := zpow_le_zpow_right₀ (by norm_num) (by omega)
    have bound := rounds.below normal
    rw [div_lt_iff₀ (two_zpow_pos _)] at bound
    have cast : (((shortest m e).1 * 10 ^ k : Nat) : ℚ) < (2 ^ 53 : Nat) :=
      calc (((shortest m e).1 * 10 ^ k : Nat) : ℚ) < (2 ^ 55 - 2) * 2 ^ (e - 2) := bound
        _ ≤ (2 ^ 55 - 2) * 2 ^ (-2 : Int) := mul_le_mul_of_nonneg_left unit (by norm_num)
        _ ≤ (2 ^ 53 : Nat) := by norm_num
    exact_mod_cast cast
  -- The whole number is one of the numbers itself, so it is this one.
  obtain ⟨m', e', normal', exact⟩ := exists_exact positive short
  obtain ⟨rfl, rfl⟩ := rounds.unique normal normal' (exact ▸ roundsTo_self normal')
  rw [wholePart?_of_eq exact] at broken
  cases broken

structure Pointed (negative : Bool) (m : Nat) (e : Int) (w : Nat) (back : Text) : Prop where
  short : ∀ n, (finite negative m e).wholePart? = some n → n < 10 ^ 15
  digits : Decimal.Digits back
  shown : (finite negative m e).display = signed negative (ofNat w ++ '.' :: back)

structure Unpointed (negative : Bool) (m : Nat) (e : Int) (n k : Nat) : Prop where
  whole : (finite negative m e).wholePart? = some n
  long : 10 ^ 15 ≤ n
  counted : 0 < k
  rounds : RoundsTo m e k
  digits : (k : ℚ) = (shortest m e).1 * 10 ^ (shortest m e).2
  shown : (finite negative m e).display = signed negative (ofNat k)

theorem pointed_or_unpointed (negative : Bool) :
    (∃ w back, Pointed negative m e w back) ∨ ∃ n k, Unpointed negative m e n k := by
  cases whole : (finite negative m e).wholePart? with
  | none =>
    obtain ⟨counted, power⟩ := shortest_broken normal within whole
    have positive := (shortest_spec normal within counted).1.positive counted
    obtain ⟨w, back, shown, digits⟩ := positional_broken positive power
    refine .inl ⟨w, back, fun n other => ?_, digits, ?_⟩
    · cases whole.symm.trans other
    · rw [display, whole, ← shown]
      exact plain_eq negative counted e
  | some n =>
    by_cases short : n < Nat.pow 10 15
    next =>
      refine .inl ⟨n, ['0'], fun k same => ?_, digits_replicate 1, ?_⟩
      · obtain rfl := Option.some.inj (whole.symm.trans same)
        exact short
      · rw [display, whole]
        exact if_pos short
    next =>
      have nonzero : n ≠ 0 := by
        rintro rfl
        exact short (by decide)
      have counted : 0 < m := counted_of_wholePart? whole (by simpa)
      obtain ⟨rounds, greatest⟩ := shortest_spec normal within counted
      have unit : RoundsTo m e (n * 10 ^ (0 : Int)) := by
        rw [ten_zpow_zero, wholePart?_eq whole]
        exact roundsTo_self normal
      obtain ⟨k, power⟩ := Int.eq_ofNat_of_zero_le (greatest unit)
      have positive := rounds.positive counted
      have value : (((shortest m e).1 * 10 ^ k : Nat) : ℚ) =
          (shortest m e).1 * 10 ^ (shortest m e).2 := by
        rw [power, cast_mul_ten_pow]
      refine .inr ⟨n, (shortest m e).1 * 10 ^ k, whole, not_lt.1 short,
        Nat.mul_pos positive (by positivity), value ▸ rounds, value, ?_⟩
      rw [display, whole]
      refine (if_neg short).trans ?_
      rw [plain_eq negative counted, power, positional_whole positive]

theorem Pointed.literalOf?_eq {negative : Bool} {w : Nat} {back : Text}
    (pointed : Pointed negative m e w back) :
    Argument.literalOf? (finite negative m e).display = some (.float (finite negative m e)) := by
  obtain ⟨t, same, plain, rounds⟩ := display_finite negative normal within
  obtain ⟨plain', value⟩ := worth_point (digits_ofNat w) pointed.digits
  obtain ⟨-, rfl⟩ := signed_cancel (minus_not_mem plain) (minus_not_mem plain')
    (same.symm.trans pointed.shown)
  have scaled : worth (ofNat w ++ '.' :: back) =
      Nat.ofDigitChars 10 (ofNat w ++ back) 0 * 10 ^ (-(back.length : Int)) := by
    rw [value, zpow_neg, zpow_natCast, div_eq_mul_inv]
  rw [scaled] at rounds
  rw [pointed.shown, Decimal.literalOf?_pointed negative w pointed.digits,
    rounds.ofDecimal_eq normal, limited, if_neg (not_lt.2 within)]

theorem Unpointed.literalOf?_eq {negative : Bool} {n k : Nat}
    (unpointed : Unpointed negative m e n k) :
    Argument.literalOf? (finite negative m e).display = some (Decimal.numeralValue negative k) ∧
      Decimal.numeralValue negative k =
        if Decimal.fitsWord (Decimal.signedInt negative k) then
          .int (Decimal.signedInt negative k)
        else .float (finite negative m e) := by
  obtain ⟨c, t, shape, nonzero⟩ := ofNat_head unpointed.counted
  have digits : Decimal.Digits (c :: t) := shape ▸ digits_ofNat k
  have rounds := unpointed.rounds
  rw [← ten_zpow_zero] at rounds
  rw [unpointed.shown, shape, Decimal.literalOf?_numeral digits negative shape nonzero,
    Decimal.numeralValue, rounds.ofDecimal_eq normal, limited, if_neg (not_lt.2 within)]
  exact ⟨rfl, rfl⟩

omit within in
theorem RoundsTo.eq_of_words_end (rounds : RoundsTo m e (2 ^ 63 : Nat)) : m = 2 ^ 52 ∧ e = 11 := by
  have half : Normal (2 ^ 52) 11 := ⟨by decide, by norm_num, .inl le_rfl⟩
  have value : ((2 ^ 63 : Nat) : ℚ) = (2 ^ 52 : Nat) * 2 ^ (11 : Int) := by norm_num
  have same : RoundsTo (2 ^ 52) 11 ((2 ^ 63 : Nat) : ℚ) := value ▸ roundsTo_self half
  exact same.unique half normal rounds

omit within in
theorem Unpointed.fits_iff {negative : Bool} {n k : Nat} (unpointed : Unpointed negative m e n k) :
    Decimal.fitsWord (Decimal.signedInt negative k) = true ↔ n < 2 ^ 63 := by
  have exact : RoundsTo m e n := by
    rw [wholePart?_eq unpointed.whole]
    exact roundsTo_self normal
  constructor
  · intro fits
    by_contra long
    have reached := unpointed.rounds.convex exact (Nat.cast_le.2 (Decimal.le_of_fits fits))
      (Nat.cast_le.2 (not_lt.1 long))
    obtain ⟨rfl, rfl⟩ := reached.eq_of_words_end normal
    have digits : shortest (2 ^ 52) 11 = (9223372036854776, 3) := by decide +kernel
    have value := unpointed.digits
    rw [digits] at value
    have beyond : ((2 ^ 63 : Nat) : ℚ) < k := by
      rw [value]
      norm_num
    exact absurd (Decimal.le_of_fits fits) (not_le.2 (Nat.cast_lt.1 beyond))
  · intro short
    by_contra overflows
    have reached := exact.convex unpointed.rounds (Nat.cast_le.2 short.le)
      (Nat.cast_le.2 (Decimal.long_of_not_fits overflows))
    obtain ⟨rfl, rfl⟩ := reached.eq_of_words_end normal
    have value : (n : ℚ) = (2 ^ 63 : Nat) := by
      rw [wholePart?_eq unpointed.whole]
      norm_num
    exact absurd (Nat.cast_inj.1 value) short.ne

theorem display_whole {negative : Bool} {n : Nat}
    (whole : (finite negative m e).wholePart? = some n) :
    if n < 10 ^ 15 then (finite negative m e).display = signed negative (ofNat n ++ ".0")
    else '.' ∉ (finite negative m e).display := by
  split
  next short =>
    rw [display, whole]
    exact if_pos short
  next long =>
    rcases pointed_or_unpointed normal within negative with
      ⟨w, back, pointed⟩ | ⟨n', k, unpointed⟩
    · exact absurd (pointed.short n whole) long
    · rw [unpointed.shown]
      intro point
      cases negative with
      | false => cases digits_ofNat k '.' point
      | true =>
        rcases List.mem_cons.1 point with minus | digit
        · cases minus
        · cases digits_ofNat k '.' digit

end Shape

end Display

end Double

namespace Argument

open Decimal

theorem literalOf?_ofInt {n : Int} (fits : fitsWord n = true) :
    literalOf? (Text.ofInt n) = some (.int n) := by
  have whole : signedInt (decide (n < 0)) n.natAbs = n := by
    by_cases negative : n < 0
    next =>
      simp only [signedInt, negative, decide_true, if_true]
      omega
    next =>
      simp only [signedInt, negative, decide_false, Bool.false_eq_true, if_false]
      omega
  rw [Text.ofInt_eq]
  rcases Nat.eq_zero_or_pos n.natAbs with zero | counted
  · obtain rfl := Int.natAbs_eq_zero.1 zero
    rfl
  · obtain ⟨c, t, shape, nonzero⟩ := ofNat_head counted
    have digits : Digits (c :: t) := shape ▸ digits_ofNat n.natAbs
    rw [shape, literalOf?_numeral digits _ shape nonzero, numeralValue, whole, if_pos fits]

end Argument

namespace Value

/-- A float that is shown as the digits of a whole number which a word holds. -/
def ShownAsWord (v : Value) : Prop :=
  ∃ x n, v = .float x ∧ x.wholePart? = some n ∧ 10 ^ 15 ≤ n ∧ n < 2 ^ 63

theorem literalOf?_display {v : Value} (literal : Argument.Literal v) :
    (¬ v.ShownAsWord → Argument.literalOf? v.display = some v) ∧
      (v.ShownAsWord → ∃ k, Argument.literalOf? v.display = some (.int k) ∧
        (int k).display = v.display) := by
  cases literal with
  | bool b => cases b <;> exact ⟨fun _ => rfl, fun ⟨_, _, other, _⟩ => by cases other⟩
  | int fits =>
    exact ⟨fun _ => Argument.literalOf?_ofInt fits, fun ⟨_, _, other, _⟩ => by cases other⟩
  | @float x proper =>
    cases x with
    | nan => exact ⟨fun _ => rfl, fun ⟨_, _, same, whole, _⟩ => by cases same; cases whole⟩
    | infinite b =>
      cases b <;> exact ⟨fun _ => rfl, fun ⟨_, _, same, whole, _⟩ => by cases same; cases whole⟩
    | finite negative m e =>
      obtain ⟨normal, within⟩ := proper
      rcases Double.pointed_or_unpointed normal within negative with
        ⟨w, back, pointed⟩ | ⟨n, k, unpointed⟩
      · refine ⟨fun _ => pointed.literalOf?_eq normal within, ?_⟩
        rintro ⟨_, n, same, whole, long, -⟩
        cases same
        exact absurd (pointed.short n whole) (not_lt.2 long)
      · obtain ⟨read, value⟩ := unpointed.literalOf?_eq normal within
        have fits := unpointed.fits_iff normal
        constructor
        · intro other
          have long : ¬ Decimal.fitsWord (Decimal.signedInt negative k) = true := fun inside =>
            other ⟨_, n, rfl, unpointed.whole, unpointed.long, fits.1 inside⟩
          rw [display, read, value, if_neg long]
        · rintro ⟨_, n', same, whole, -, short⟩
          cases same
          obtain rfl := Option.some.inj (unpointed.whole.symm.trans whole)
          have inside := fits.2 short
          have digits := Decimal.display_numeralValue unpointed.counted inside
          rw [value, if_pos inside] at read digits
          exact ⟨_, read, digits.trans unpointed.shown.symm⟩

end Value

theorem shown_literal {a b : Argument} {v : Value} (read : a.literal? = some v)
    (shown : b.value = v.display) :
    (¬ v.ShownAsWord → b.literal? = some v) ∧
      (v.ShownAsWord → ∃ k, b.literal? = some (.int k) ∧ (Value.int k).display = v.display) ∧
      ∀ x n, v = .float x → x.wholePart? = some n →
        if n < 10 ^ 15 then v.display = Double.signed x.isNegative (ofNat n ++ ".0")
        else '.' ∉ v.display := by
  have literal := (Argument.literal_of_read read).2
  obtain ⟨again, word⟩ := Value.literalOf?_display literal
  rw [Argument.literal?, shown]
  refine ⟨again, word, ?_⟩
  rintro x n rfl whole
  cases literal with
  | float proper =>
    cases x with
    | nan | infinite => cases whole
    | finite negative m e => exact Double.display_whole proper.1 proper.2 whole

theorem shown_literal_power :
    let huge := Value.float (.finite true 7105427357601002 47)
    let whole := Value.float (.finite true 7812500000000000 8)
    ((Argument.ofLine "-1e+30").literal? = some huge ∧ ¬ huge.ShownAsWord ∧
        (Argument.ofLine "-1000000000000000000000000000000").literal? = some huge) ∧
      (Argument.ofLine "-2e+18").literal? = some whole ∧ whole.ShownAsWord ∧
      ∃ k, (Argument.ofLine "-2000000000000000000").literal? = some (.int k) := by
  intro huge whole
  have shown : huge.display = "-1000000000000000000000000000000" := by decide +kernel
  have shown' : whole.display = "-2000000000000000000" := by decide +kernel
  have read : (Argument.ofLine "-1e+30").literal? = some huge := by rfl
  have read' : (Argument.ofLine "-2e+18").literal? = some whole := by rfl
  have long : ¬ huge.ShownAsWord := fun ⟨_, _, same, value, _, short⟩ => by
    obtain rfl := Value.float.inj same
    obtain rfl := Option.some.inj value
    exact absurd short (by decide +kernel)
  have word : whole.ShownAsWord :=
    ⟨_, 2000000000000000000, rfl, by decide +kernel, by decide, by decide⟩
  have again := shown_literal (b := .ofLine _) read shown.symm
  have again' := shown_literal (b := .ofLine _) read' shown'.symm
  obtain ⟨k, number, -⟩ := again'.2.1 word
  exact ⟨⟨read, long, again.1 long⟩, read', word, k, number⟩

theorem shown_literal_pointless :
    let x : Double := .finite false 8000000000000000 (-3)
    (Argument.ofLine "1e15").literal? = some (.float x) ∧
      (Value.float x).display = "1000000000000000" ∧
      (Argument.ofLine "1000000000000000").literal? = some (.int 1000000000000000) ∧
      (Value.float x).typeName ≠ (Value.int 1000000000000000).typeName := by
  intro x
  have shown : x.display = "1000000000000000" := by decide +kernel
  exact ⟨rfl, shown, rfl, by decide⟩

end Docspec
