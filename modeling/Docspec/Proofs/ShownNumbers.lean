import Docspec.Proofs.Numerals

set_option autoImplicit false

namespace Docspec

open Text

namespace Text

def worth (t : Text) : ℚ :=
  Nat.ofDigitChars 10 (t.filter isDigit) 0 / 10 ^ (t.dropWhile (· ≠ '.')).tail.length

def IsPositional (t : Text) : Prop := ∀ c ∈ t, isDigit c = true ∨ c = '.'

section Worth

variable {front back : Text} (digits : ∀ c ∈ front, isDigit c = true)
include digits

theorem dropWhile_digits (t : Text) :
    (front ++ t).dropWhile (· ≠ '.') = t.dropWhile (· ≠ '.') := by
  refine List.dropWhile_append_of_pos fun c member => ?_
  have digit := digits c member
  rw [decide_eq_true_eq]
  rintro rfl
  cases digit

theorem worth_digits : IsPositional front ∧ worth front = Nat.ofDigitChars 10 front 0 := by
  have nowhere := dropWhile_digits digits []
  rw [List.append_nil] at nowhere
  refine ⟨fun c member => .inl (digits c member), ?_⟩
  rw [worth, nowhere, List.filter_eq_self.2 digits]
  exact div_one _

theorem worth_point (digits' : ∀ c ∈ back, isDigit c = true) :
    IsPositional (front ++ '.' :: back) ∧
      worth (front ++ '.' :: back) = Nat.ofDigitChars 10 (front ++ back) 0 / 10 ^ back.length := by
  constructor
  · intro c member
    rcases List.mem_append.1 member with before | behind
    · exact .inl (digits c before)
    · exact (List.mem_cons.1 behind).elim .inr fun later => .inl (digits' c later)
  · have kept : (front ++ '.' :: back).filter isDigit = front ++ back := by
      rw [List.filter_append, List.filter_eq_self.2 digits, List.filter_cons_of_neg (by decide),
        List.filter_eq_self.2 digits']
    rw [worth, kept, dropWhile_digits digits, List.dropWhile_cons_of_neg (by decide),
      List.tail_cons]

end Worth

theorem digits_replicate (k : Nat) : ∀ c ∈ List.replicate k '0', isDigit c = true := by
  intro c member
  rw [(List.mem_replicate.1 member).2]
  rfl

theorem minus_not_mem {t : Text} (plain : IsPositional t) : '-' ∉ t := fun member => by
  rcases plain '-' member with digit | point
  · cases digit
  · cases point

end Text

namespace Double

/-- Numbers of 53 binary digits, infinity, and what is no number. -/
def Proper : Double → Prop
  | .finite _ m e => Normal m e ∧ e ≤ greatestExponent
  | _ => True

theorem positional_spec (d : Nat) (p : Int) :
    IsPositional (positional d p) ∧ worth (positional d p) = d * 10 ^ p := by
  have digits := digits_ofNat d
  rw [positional]
  split
  next whole =>
    obtain ⟨k, rfl⟩ := Int.eq_ofNat_of_zero_le whole
    obtain ⟨plain, value⟩ := worth_digits (List.forall_mem_append.2 ⟨digits, digits_replicate k⟩)
    refine ⟨plain, value.trans ?_⟩
    rw [Nat.ofDigitChars_append, ofDigitChars_ofNat, Nat.ofDigitChars_replicate_zero]
    push_cast
    rw [zpow_natCast, mul_comm]
  next broken =>
    obtain ⟨k, rfl⟩ : ∃ k : Nat, p = -k := ⟨(-p).toNat, by omega⟩
    have places : (- -(k : Int)).toNat = k := by omega
    simp only [zpow_neg, zpow_natCast, ← div_eq_mul_inv, places]
    split
    next inside =>
      have front : ∀ c ∈ (ofNat d).take ((ofNat d).length - k), isDigit c = true :=
        fun c member => digits c (List.mem_of_mem_take member)
      have back : ∀ c ∈ (ofNat d).drop ((ofNat d).length - k), isDigit c = true :=
        fun c member => digits c (List.mem_of_mem_drop member)
      obtain ⟨plain, value⟩ := worth_point front back
      refine ⟨plain, value.trans ?_⟩
      rw [List.take_append_drop, ofDigitChars_ofNat, List.length_drop, Nat.sub_sub_self inside.le]
    next beyond =>
      obtain ⟨plain, value⟩ := worth_point (digits_replicate 1)
        (List.forall_mem_append.2 ⟨digits_replicate (k - (ofNat d).length), digits⟩)
      refine ⟨plain, value.trans ?_⟩
      have length : (List.replicate (k - (ofNat d).length) '0' ++ ofNat d).length = k := by
        rw [List.length_append, List.length_replicate]
        omega
      rw [length, Nat.ofDigitChars_append, Nat.ofDigitChars_append,
        Nat.ofDigitChars_replicate_zero, Nat.ofDigitChars_replicate_zero, Nat.mul_zero,
        ofDigitChars_ofNat]

section Finite

variable {m n : Nat} {e : Int}

theorem roundsTo_self (normal : Normal m e) : RoundsTo m e (m * 2 ^ e) := by
  rcases Nat.eq_zero_or_pos m with rfl | counted
  · obtain rfl : e = leastExponent := normal.full.resolve_left (by norm_num)
    simpa using roundsTo_zero.2
  · rw [RoundsTo, quarters_eq, mul_div_cancel_right₀ _ (two_zpow_pos e).ne']
    exact contains_middle counted

theorem wholePart?_eq {negative : Bool} (whole : (finite negative m e).wholePart? = some n) :
    (n : ℚ) = m * 2 ^ e := by
  rw [wholePart?] at whole
  split at whole
  next large =>
    obtain ⟨k, rfl⟩ := Int.eq_ofNat_of_zero_le large
    obtain rfl := Option.some.inj whole
    simp
  next small =>
    obtain ⟨k, rfl⟩ : ∃ k : Nat, e = -k := ⟨(-e).toNat, by omega⟩
    have unit : Nat.pow 2 (- -(k : Int)).toNat = 2 ^ k := by
      rw [neg_neg, Int.toNat_natCast]
      rfl
    simp only [unit] at whole
    split at whole
    next divides =>
      obtain rfl := Option.some.inj whole
      obtain ⟨n, rfl⟩ := Nat.dvd_of_mod_eq_zero divides
      rw [Nat.mul_div_cancel_left n (by positivity), zpow_neg, zpow_natCast]
      push_cast
      field_simp
    next => cases whole

theorem counted_of_wholePart? {negative : Bool} {part : Option Nat}
    (whole : (finite negative m e).wholePart? = part) (other : part ≠ some 0) : 0 < m := by
  refine Nat.pos_of_ne_zero ?_
  rintro rfl
  simp [← whole, wholePart?] at other

theorem display_finite (negative : Bool) (normal : Normal m e) (within : e ≤ greatestExponent) :
    ∃ t, (finite negative m e).display = signed negative t ∧ IsPositional t ∧
      RoundsTo m e (worth t) := by
  have plainly (counted : 0 < m) : ∃ t, (finite negative m e).plain = signed negative t ∧
      IsPositional t ∧ RoundsTo m e (worth t) := by
    obtain ⟨plain, value⟩ := positional_spec (shortest m e).1 (shortest m e).2
    refine ⟨_, plain_eq negative counted e, plain, ?_⟩
    rw [value]
    exact (shortest_spec normal within counted).1
  rw [display]
  cases whole : (finite negative m e).wholePart? with
  | none => exact plainly (counted_of_wholePart? whole (by simp))
  | some n =>
    by_cases short : n < Nat.pow 10 15
    next =>
      obtain ⟨plain, value⟩ := worth_point (digits_ofNat n) (digits_replicate 1)
      refine ⟨_, if_pos short, plain, ?_⟩
      have same : worth (ofNat n ++ ".0") = m * 2 ^ e := by
        rw [← wholePart?_eq whole]
        refine value.trans ?_
        rw [Nat.ofDigitChars_append, ofDigitChars_ofNat, Nat.ofDigitChars_replicate_zero]
        push_cast
        norm_num
      rw [same]
      exact roundsTo_self normal
    next =>
      have nonzero : n ≠ 0 := by
        rintro rfl
        exact short (by decide)
      obtain ⟨t, shown, rest⟩ := plainly (counted_of_wholePart? whole (by simpa))
      exact ⟨t, (if_neg short).trans shown, rest⟩

end Finite

theorem display_ne_finite {y : Double} (other : y.isFinite = false) {negative : Bool} {m : Nat}
    {e : Int} (proper : (finite negative m e).Proper) :
    y.display ≠ (finite negative m e).display := by
  obtain ⟨t, shown, plain, -⟩ := display_finite negative proper.1 proper.2
  obtain ⟨c, member, strange, point, minus⟩ : ∃ c ∈ y.display, isDigit c = false ∧ c ≠ '.' ∧
      c ≠ '-' := by
    cases y with
    | nan => exact ⟨'N', by decide, rfl, by decide, by decide⟩
    | infinite b => cases b <;> exact ⟨'f', by decide, rfl, by decide, by decide⟩
    | finite => cases other
  have absent : c ∉ t := fun inside => by
    rcases plain c inside with digit | own
    · rw [strange] at digit
      cases digit
    · exact point own
  intro same
  rw [same, shown] at member
  cases negative with
  | false => exact absent member
  | true => exact (List.mem_cons.1 member).elim minus absent

theorem display_injective {x y : Double} (proper : x.Proper) (proper' : y.Proper)
    (same : x.display = y.display) : x = y := by
  cases x with
  | nan =>
    cases y with
    | nan => rfl
    | infinite b => cases b <;> exact absurd same (by decide)
    | finite => exact absurd same (display_ne_finite rfl proper')
  | infinite a =>
    cases y with
    | nan => cases a <;> exact absurd same (by decide)
    | infinite b => cases a <;> cases b <;> first | rfl | exact absurd same (by decide)
    | finite => exact absurd same (display_ne_finite rfl proper')
  | finite a m e =>
    cases y with
    | nan | infinite => exact absurd same.symm (display_ne_finite rfl proper)
    | finite b n f =>
      obtain ⟨s, shown, plain, rounds⟩ := display_finite a proper.1 proper.2
      obtain ⟨t, shown', plain', rounds'⟩ := display_finite b proper'.1 proper'.2
      rw [shown, shown'] at same
      obtain ⟨rfl, rfl⟩ := signed_cancel (minus_not_mem plain) (minus_not_mem plain') same
      obtain ⟨rfl, rfl⟩ := rounds.unique proper.1 proper'.1 rounds'
      rfl

end Double

theorem Text.ofInt_eq (n : Int) :
    ofInt n = Double.signed (decide (n < 0)) (ofNat n.natAbs) := by
  cases n with
  | ofNat n => rfl
  | negSucc n =>
    rw [decide_eq_true (Int.negSucc_lt_zero n)]
    rfl

theorem Text.ofInt_injective {m n : Int} (same : ofInt m = ofInt n) : m = n := by
  rw [ofInt_eq, ofInt_eq, signed_injective, decide_eq_decide] at same
  omega

end Docspec
