import Docspec.Proofs.ShownNumbers

set_option autoImplicit false

namespace Docspec

open Text Placeholder

theorem Text.isAsciiUpper_of_isBlank {c : Char} (blank : isBlank c = true) :
    isAsciiUpper c = false := by
  simp only [isBlank, Bool.or_eq_true, Bool.and_eq_true, decide_eq_true_eq, beq_iff_eq] at blank
  simp only [isAsciiUpper, Bool.and_eq_false_iff, decide_eq_false_iff_not, Char.le_def,
    UInt32.le_iff_toNat_le]
  change ¬ 65 ≤ c.toNat ∨ ¬ c.toNat ≤ 90
  omega

theorem Double.proper_ofDecimal (negative : Bool) (digits : Nat) (power : Int) :
    (ofDecimal negative digits power).Proper := by
  obtain ⟨m, e, normal, -, read⟩ := exists_ofDecimal negative digits power
  rw [read, limited]
  split
  next => trivial
  next within => exact ⟨normal, not_lt.1 within⟩

namespace Decimal

def Digits (t : Text) : Prop := ∀ c ∈ t, isDigit c = true

def IsSign (t : Text) : Prop := t = [] ∨ t = ['+'] ∨ t = ['-']

def words : List Text := ["inf", "infinity", "nan"]

inductive Exponent : Text → Prop
  | none : Exponent []
  | power {c : Char} {sign digits : Text} : c = 'e' ∨ c = 'E' → IsSign sign → digits ≠ [] →
    Digits digits → Exponent (c :: (sign ++ digits))

inductive Unsigned : Text → Prop
  | word {t : Text} : asciiLower t ∈ words → Unsigned t
  | whole {front power : Text} : front ≠ [] → Digits front → Exponent power →
    Unsigned (front ++ power)
  | broken {front back power : Text} : front ++ back ≠ [] → Digits front → Digits back →
    Exponent power → Unsigned (front ++ '.' :: (back ++ power))

theorem exists_digits?_iff {t : Text} : (∃ n, digits? t = some n) ↔ t ≠ [] ∧ Digits t := by
  have all : t.all isDigit = true ↔ Digits t := List.all_eq_true
  rw [digits?, ← all]
  cases t.all isDigit <;> cases t <;> simp

theorem takeSign_eq (t : Text) : ∃ sign, IsSign sign ∧ t = sign ++ (takeSign t).2 := by
  unfold takeSign
  split
  next => exact ⟨['+'], .inr (.inl rfl), rfl⟩
  next => exact ⟨['-'], .inr (.inr rfl), rfl⟩
  next => exact ⟨[], .inl rfl, rfl⟩

theorem takeSign_append {sign t : Text} (signed : IsSign sign)
    (bare : ∀ c ∈ t.head?, c ≠ '+' ∧ c ≠ '-') : (takeSign (sign ++ t)).2 = t := by
  rcases signed with rfl | rfl | rfl
  · exact congrArg Prod.snd (takeSign_of_bare bare false)
  · rfl
  · rfl

theorem bare_digits {t : Text} (digits : Digits t) : ∀ c ∈ t.head?, c ≠ '+' ∧ c ≠ '-' := by
  intro c first
  have digit := digits c (List.mem_of_mem_head? first)
  constructor <;> rintro rfl <;> cases digit

theorem exists_readInt?_iff {t : Text} : (∃ n, readInt? t = some n) ↔
    ∃ sign digits, t = sign ++ digits ∧ IsSign sign ∧ digits ≠ [] ∧ Digits digits := by
  have read : (∃ n, readInt? t = some n) ↔ ∃ n, digits? (takeSign t).2 = some n := by
    simp only [readInt?]
    cases digits? (takeSign t).2 <;> simp
  rw [read, exists_digits?_iff]
  constructor
  · rintro ⟨visible, digits⟩
    obtain ⟨sign, signed, shape⟩ := takeSign_eq t
    exact ⟨sign, _, shape, signed, visible, digits⟩
  · rintro ⟨sign, digits, rfl, signed, visible, all⟩
    rw [takeSign_append signed (bare_digits all)]
    exact ⟨visible, all⟩

theorem exists_readPower?_iff {t : Text} : (∃ n, readPower? t = some n) ↔ Exponent t := by
  cases t with
  | nil => exact iff_of_true ⟨0, rfl⟩ .none
  | cons c t =>
    rw [readPower?]
    constructor
    · rintro ⟨n, read⟩
      split at read
      next letter =>
        obtain ⟨sign, digits, rfl, signed, visible, all⟩ := exists_readInt?_iff.1 ⟨n, read⟩
        exact .power letter signed visible all
      next => cases read
    · intro exponent
      cases exponent with
      | power letter signed visible all =>
        rw [if_pos letter]
        exact exists_readInt?_iff.2 ⟨_, _, rfl, signed, visible, all⟩

theorem Exponent.stops {t : Text} (exponent : Exponent t) :
    ∀ c ∈ t.head?, isDigit c = false ∧ c ≠ '.' := by
  cases exponent with
  | none => simp
  | power letter =>
    intro c first
    obtain rfl := Option.some.inj first
    rcases letter with rfl | rfl <;> exact ⟨rfl, by decide⟩

theorem readUnsigned?_word (negative : Bool) {t : Text} (word : asciiLower t ∈ words) :
    readUnsigned? negative t =
      some (if asciiLower t = "nan".toList then .nan else .infinite negative) := by
  simp only [words, List.mem_cons, List.not_mem_nil, or_false] at word
  rcases word with same | same | same <;> simp [readUnsigned?, same]

theorem readUnsigned?_whole (negative : Bool) {front power : Text} (digits : Digits front)
    (stops : ∀ c ∈ power.head?, isDigit c = false ∧ c ≠ '.')
    (number : asciiLower (front ++ power) ∉ words) :
    readUnsigned? negative (front ++ power) = (digits? front).bind fun d =>
      (readPower? power).map fun p => Double.ofDecimal negative d p := by
  simp only [words, List.mem_cons, List.not_mem_nil, or_false, not_or] at number
  obtain ⟨inf, infinity, nan⟩ := number
  obtain ⟨taken, left⟩ := longest digits fun c first => (stops c first).1
  unfold readUnsigned?
  extract_lets lower whole rest
  rw [if_neg (not_or.2 ⟨inf, infinity⟩), if_neg nan, show rest = power from left,
    show whole = front from taken]
  cases power with
  | nil => cases h : digits? front <;> simp [h, readPower?]
  | cons c power =>
    have point : c ≠ '.' := (stops c rfl).2
    cases h : digits? front <;> cases h' : readPower? (c :: power) <;> simp [h, h', point]

theorem readUnsigned?_broken (negative : Bool) {front back power : Text} (digits : Digits front)
    (digits' : Digits back) (stops : ∀ c ∈ power.head?, isDigit c = false)
    (number : asciiLower (front ++ '.' :: (back ++ power)) ∉ words) :
    readUnsigned? negative (front ++ '.' :: (back ++ power)) =
      (digits? (front ++ back)).bind fun d => (readPower? power).map fun p =>
        Double.ofDecimal negative d (p - (back.length : Int)) := by
  simp only [words, List.mem_cons, List.not_mem_nil, or_false, not_or] at number
  obtain ⟨inf, infinity, nan⟩ := number
  obtain ⟨taken, left⟩ := longest (b := '.' :: (back ++ power)) digits (by simp [isDigit])
  obtain ⟨taken', left'⟩ := longest digits' stops
  unfold readUnsigned?
  extract_lets lower whole rest
  rw [if_neg (not_or.2 ⟨inf, infinity⟩), if_neg nan, show rest = _ from left,
    show whole = front from taken]
  simp only [taken', left']
  cases digits? (front ++ back) <;> cases readPower? power <;> rfl

theorem IsSign.solid {sign : Text} (signed : IsSign sign) : ∀ c ∈ sign, isBlank c = false := by
  rcases signed with rfl | rfl | rfl <;> exact forall_of_any rfl

theorem Digits.solid {t : Text} (digits : Digits t) : ∀ c ∈ t, isBlank c = false :=
  fun c member => isBlank_of_isVariableChar (by simp [isVariableChar, isNameChar, digits c member])

theorem Exponent.solid {t : Text} (exponent : Exponent t) : ∀ c ∈ t, isBlank c = false := by
  cases exponent with
  | none => simp
  | power letter signed _ digits =>
    refine List.forall_mem_cons.2 ⟨?_, List.forall_mem_append.2 ⟨signed.solid, digits.solid⟩⟩
    rcases letter with rfl | rfl <;> rfl

theorem letter_of_word {t : Text} (word : asciiLower t ∈ words) {c : Char} (member : c ∈ t) :
    (if isAsciiUpper c then c.toLower else c) ∈ words.flatten :=
  List.mem_flatten.2 ⟨_, word, List.mem_map_of_mem member⟩

theorem Unsigned.visible {t : Text} (unsigned : Unsigned t) : t ≠ [] := by
  cases unsigned with
  | word word =>
    rintro rfl
    exact absurd word (by decide)
  | whole visible => exact List.append_ne_nil_of_left_ne_nil visible _
  | broken => simp

theorem Unsigned.bare {t : Text} (unsigned : Unsigned t) : ∀ c ∈ t.head?, c ≠ '+' ∧ c ≠ '-' := by
  cases unsigned with
  | word word =>
    intro c first
    have letter := letter_of_word word (List.mem_of_mem_head? first)
    constructor <;> rintro rfl <;> exact absurd letter (by decide)
  | whole visible digits =>
    rw [List.head?_append_of_ne_nil _ visible]
    exact bare_digits digits
  | @broken front back power _ digits =>
    cases front with
    | nil =>
      intro c first
      obtain rfl := Option.some.inj first
      decide
    | cons c front => exact bare_digits (t := c :: front) digits

theorem Unsigned.solid {t : Text} (unsigned : Unsigned t) : ∀ c ∈ t, isBlank c = false := by
  cases unsigned with
  | word word =>
    intro c member
    have letter := letter_of_word word member
    by_contra blank
    rw [Bool.not_eq_false] at blank
    rw [isAsciiUpper_of_isBlank blank] at letter
    have solid : ∀ d ∈ words.flatten, isBlank d = false := forall_of_any rfl
    simp [solid c letter] at blank
  | whole _ digits exponent => exact List.forall_mem_append.2 ⟨digits.solid, exponent.solid⟩
  | broken _ digits digits' exponent =>
    exact List.forall_mem_append.2 ⟨digits.solid, List.forall_mem_cons.2 ⟨rfl,
      List.forall_mem_append.2 ⟨digits'.solid, exponent.solid⟩⟩⟩

theorem readDouble?_eq (t : Text) : readDouble? t = readUnsigned? (takeSign t).1 (takeSign t).2 :=
  rfl

theorem unsigned_of_read {negative : Bool} {t : Text} {x : Double}
    (read : readUnsigned? negative t = some x) : Unsigned t ∧ x.Proper := by
  by_cases word : asciiLower t ∈ words
  next =>
    rw [readUnsigned?_word negative word] at read
    obtain rfl := Option.some.inj read
    refine ⟨.word word, ?_⟩
    split <;> trivial
  have number {d? : Option Nat} {p? : Option Int} {f : Nat → Int → Int}
      (read : (d?.bind fun d => p?.map fun p => Double.ofDecimal negative d (f d p)) = some x) :
      (∃ d, d? = some d) ∧ (∃ p, p? = some p) ∧ x.Proper := by
    obtain ⟨d, digits, rest⟩ := Option.bind_eq_some_iff.1 read
    obtain ⟨p, power, rfl⟩ := Option.map_eq_some_iff.1 rest
    exact ⟨⟨d, digits⟩, ⟨p, power⟩, Double.proper_ofDecimal negative d _⟩
  obtain ⟨front, rest, rfl, digits, stops⟩ := exists_longest isDigit t
  by_cases pointed : rest.head? = some '.'
  next =>
    obtain ⟨r, rfl⟩ := List.head?_eq_some_iff.1 pointed
    obtain ⟨back, power, rfl, digits', stops'⟩ := exists_longest isDigit r
    rw [readUnsigned?_broken negative digits digits' stops' word] at read
    obtain ⟨some, exponent, proper⟩ := number read
    have visible := (exists_digits?_iff.1 some).1
    exact ⟨.broken visible digits digits' (exists_readPower?_iff.1 exponent), proper⟩
  next =>
    have stops c (first : c ∈ rest.head?) : isDigit c = false ∧ c ≠ '.' :=
      ⟨stops c first, fun same => pointed (same ▸ first)⟩
    rw [readUnsigned?_whole negative digits stops word] at read
    obtain ⟨some, exponent, proper⟩ := number (f := fun _ p => p) read
    have visible := (exists_digits?_iff.1 some).1
    exact ⟨.whole visible digits (exists_readPower?_iff.1 exponent), proper⟩

theorem exists_readUnsigned? (negative : Bool) {t : Text} (unsigned : Unsigned t) :
    ∃ x, readUnsigned? negative t = some x := by
  by_cases word : asciiLower t ∈ words
  next => exact ⟨_, readUnsigned?_word negative word⟩
  cases unsigned with
  | word other => exact absurd other word
  | whole visible digits exponent =>
    obtain ⟨d, value⟩ := exists_digits?_iff.2 ⟨visible, digits⟩
    obtain ⟨p, power⟩ := exists_readPower?_iff.2 exponent
    exact ⟨_, by rw [readUnsigned?_whole negative digits exponent.stops word, value, power]; rfl⟩
  | broken visible digits digits' exponent =>
    obtain ⟨d, value⟩ := exists_digits?_iff.2 ⟨visible, List.forall_mem_append.2 ⟨digits, digits'⟩⟩
    obtain ⟨p, power⟩ := exists_readPower?_iff.2 exponent
    have stops c first := (exponent.stops c first).1
    exact ⟨_, by rw [readUnsigned?_broken negative digits digits' stops word, value, power]; rfl⟩

end Decimal

namespace Argument

open Decimal

/-- What is read as a truth value or a number. A zero in front is one of a number only before a
point, or alone. -/
inductive SpellsLiteral : Text → Prop
  | true : SpellsLiteral "true"
  | false : SpellsLiteral "false"
  | number {sign t : Text} : IsSign sign → Unsigned t → startsWithBareZero (sign ++ t) = .false →
    SpellsLiteral (sign ++ t)

inductive Literal : Value → Prop
  | bool (b : Bool) : Literal (.bool b)
  | int {n : Int} : fitsWord n = .true → Literal (.int n)
  | float {x : Double} : x.Proper → Literal (.float x)

theorem literal_of_read {t : Text} {v : Value} (read : literalOf? t = some v) :
    SpellsLiteral t ∧ Literal v := by
  rw [literalOf?] at read
  split at read
  next same =>
    cases read
    exact ⟨same ▸ .true, .bool _⟩
  next =>
  split at read
  next same =>
    cases read
    exact ⟨same ▸ .false, .bool _⟩
  next =>
  split at read
  next => cases read
  next zero =>
  rw [Bool.not_eq_true] at zero
  split at read
  next n word =>
    cases read
    obtain ⟨whole, fits⟩ := Option.filter_eq_some_iff.1 word
    obtain ⟨sign, digits, rfl, signed, visible, all⟩ := exists_readInt?_iff.1 ⟨n, whole⟩
    have unsigned := Unsigned.whole visible all .none
    rw [List.append_nil] at unsigned
    exact ⟨.number signed unsigned zero, .int fits⟩
  next =>
    obtain ⟨x, double, rfl⟩ := Option.map_eq_some_iff.1 read
    obtain ⟨sign, signed, shape⟩ := takeSign_eq t
    obtain ⟨unsigned, proper⟩ := unsigned_of_read double
    rw [shape] at zero ⊢
    exact ⟨.number signed unsigned zero, .float proper⟩

theorem exists_literalOf? {t : Text} (spells : SpellsLiteral t) : ∃ v, literalOf? t = some v := by
  cases spells with
  | true => exact ⟨_, rfl⟩
  | false => exact ⟨_, rfl⟩
  | @number sign t signed unsigned zero =>
    rw [literalOf?, zero]
    split
    next => exact ⟨_, rfl⟩
    next =>
    split
    next => exact ⟨_, rfl⟩
    next =>
    obtain ⟨x, read⟩ := exists_readUnsigned? (takeSign (sign ++ t)).1 unsigned
    have double : readDouble? (sign ++ t) = some x := by
      rw [readDouble?_eq, takeSign_append signed unsigned.bare, read]
    cases readWord? (sign ++ t) with
    | some n => exact ⟨_, rfl⟩
    | none => exact ⟨.float x, by rw [double]; rfl⟩

theorem SpellsLiteral.solid {t : Text} (spells : SpellsLiteral t) :
    t ≠ [] ∧ ∀ c ∈ t, isBlank c = .false := by
  cases spells with
  | true => exact ⟨by decide, forall_of_any rfl⟩
  | false => exact ⟨by decide, forall_of_any rfl⟩
  | number signed unsigned =>
    refine ⟨List.append_ne_nil_of_right_ne_nil _ unsigned.visible, ?_⟩
    exact List.forall_mem_append.2 ⟨signed.solid, unsigned.solid⟩

end Argument

end Docspec
