import Docspec.Proofs.Definitions
import Docspec.Proofs.Paths
import Docspec.Proofs.ShortestDigits

set_option autoImplicit false

namespace Docspec

open Text Placeholder

namespace Text

theorem isDigit_iff {c : Char} : isDigit c = true ↔ 48 ≤ c.toNat ∧ c.toNat ≤ 57 := by
  simp only [isDigit, Bool.and_eq_true, decide_eq_true_eq]
  exact Iff.rfl

theorem digitChar_toNat {c : Char} (digit : isDigit c = true) : (c.toNat - 48).digitChar = c := by
  obtain ⟨low, high⟩ := isDigit_iff.1 digit
  apply Char.toNat_inj.1
  rw [Nat.toNat_digitChar_of_lt_ten (by omega)]
  omega

theorem digits_ofNat (n : Nat) : ∀ c ∈ ofNat n, isDigit c = true := fun _ member =>
  Nat.isDigit_of_mem_toDigits (by norm_num) (by norm_num) member

theorem ofDigitChars_ofNat (n : Nat) : Nat.ofDigitChars 10 (ofNat n) 0 = n :=
  Nat.ofDigitChars_ten_toDigits

theorem digits?_ofNat (n : Nat) : digits? (ofNat n) = some n := by
  have digits : (ofNat n).all isDigit = true := List.all_eq_true.2 (digits_ofNat n)
  have nonempty : (ofNat n).isEmpty = false := by simp [ofNat]
  rw [digits?, digits, nonempty]
  exact congrArg some (ofDigitChars_ofNat n)

theorem ofNat_injective {m n : Nat} (same : ofNat m = ofNat n) : m = n := by
  have read := digits?_ofNat m
  rw [same, digits?_ofNat] at read
  exact (Option.some.inj read).symm

theorem ofNat_append {t : Text} (digits : ∀ c ∈ t, isDigit c = true) {n : Nat} (counted : 0 < n) :
    ∃ m, 0 < m ∧ ofNat m = ofNat n ++ t := by
  induction t generalizing n with
  | nil => exact ⟨n, counted, by simp⟩
  | cons c t ih =>
    obtain ⟨low, high⟩ := isDigit_iff.1 (digits c List.mem_cons_self)
    have less : c.toNat - 48 < 10 := by omega
    obtain ⟨m, more, longer⟩ := ih (fun d member => digits d (List.mem_cons_of_mem _ member))
      (n := 10 * n + (c.toNat - 48)) (by omega)
    have next : ofNat n ++ [c] = ofNat (10 * n + (c.toNat - 48)) := by
      have joined := Nat.toDigits_append_toDigits (b := 10) (by norm_num) counted less
      rwa [Nat.toDigits_of_lt_base less, digitChar_toNat (digits c List.mem_cons_self)] at joined
    exact ⟨m, more, by rw [longer, ← next, List.append_assoc, List.singleton_append]⟩

theorem exists_ofNat {c : Char} {t : Text} (nonzero : c ≠ '0')
    (digits : ∀ d ∈ c :: t, isDigit d = true) : ∃ n, 0 < n ∧ ofNat n = c :: t := by
  have digit := digits c List.mem_cons_self
  obtain ⟨low, high⟩ := isDigit_iff.1 digit
  have other : c.toNat ≠ 48 := fun same => nonzero (Char.toNat_inj.1 same)
  have first : ofNat (c.toNat - 48) = [c] := by
    rw [ofNat, Nat.toDigits_of_lt_base (by omega), digitChar_toNat digit]
  obtain ⟨n, counted, spelled⟩ := ofNat_append
    (fun d member => digits d (List.mem_cons_of_mem _ member)) (n := c.toNat - 48) (by omega)
  exact ⟨n, counted, by rw [spelled, first, List.singleton_append]⟩

end Text

namespace Decimal

def IsNumeral (s : Text) : Prop :=
  ∃ negative c t, s = Double.signed negative (c :: t) ∧ c ≠ '0' ∧ ∀ d ∈ c :: t, isDigit d = true

def signedInt (negative : Bool) (n : Nat) : Int := if negative then -(n : Int) else n

def numeralValue (negative : Bool) (n : Nat) : Value :=
  if fitsWord (signedInt negative n) then .int (signedInt negative n)
  else .float (Double.ofDecimal negative n 0)

theorem takeSign_of_bare {t : Text} (bare : ∀ c ∈ t.head?, c ≠ '+' ∧ c ≠ '-') (negative : Bool) :
    takeSign (Double.signed negative t) = (negative, t) := by
  cases negative with
  | true => rfl
  | false =>
    cases t with
    | nil => rfl
    | cons c t =>
      obtain ⟨plus, minus⟩ := bare c rfl
      simp [Double.signed, takeSign, plus, minus]

section Numeral

variable {c : Char} {t : Text} (digits : ∀ d ∈ c :: t, isDigit d = true) (negative : Bool)
include digits

theorem takeSign_signed : takeSign (Double.signed negative (c :: t)) = (negative, c :: t) := by
  refine takeSign_of_bare (fun d first => ?_) negative
  have digit := digits d (List.mem_of_mem_head? first)
  constructor <;> rintro rfl <;> cases digit

theorem numeral_chars {d : Char} (member : d ∈ Double.signed negative (c :: t)) :
    d = '-' ∨ isDigit d = true := by
  cases negative with
  | true =>
    rcases List.mem_cons.1 member with minus | digit
    · exact .inl minus
    · exact .inr (digits d digit)
  | false => exact .inr (digits d member)

variable {n : Nat} (spelled : ofNat n = c :: t)
include spelled

theorem readWord?_numeral : readWord? (Double.signed negative (c :: t)) =
    if fitsWord (signedInt negative n) then some (signedInt negative n) else none := by
  have read : digits? (c :: t) = some n := spelled ▸ digits?_ofNat n
  have whole : readInt? (Double.signed negative (c :: t)) = some (signedInt negative n) := by
    simp [readInt?, takeSign_signed digits negative, read, signedInt]
  rw [readWord?, whole, Option.filter_some]

theorem readDouble?_numeral : readDouble? (Double.signed negative (c :: t)) =
    some (Double.ofDecimal negative n 0) := by
  have read : digits? (c :: t) = some n := spelled ▸ digits?_ofNat n
  have whole : (c :: t).takeWhile isDigit = c :: t := List.takeWhile_eq_self_iff.2 digits
  have rest : (c :: t).dropWhile isDigit = [] := List.dropWhile_eq_nil_iff.2 digits
  have lower : asciiLower (c :: t) = c :: t := asciiLower_of_no_upper fun d member => by
    obtain ⟨low, high⟩ := isDigit_iff.1 (digits d member)
    have before : ¬ 'A' ≤ d := fun letter => by
      have later : 65 ≤ d.toNat := letter
      omega
    simp [isAsciiUpper, before]
  have other {w : Text} (letter : w.head?.any isDigit = false) : c :: t ≠ w := by
    rintro rfl
    simp [digits c List.mem_cons_self] at letter
  rw [readDouble?, takeSign_signed digits negative]
  change readUnsigned? negative (c :: t) = _
  unfold readUnsigned?
  extract_lets word wholeDigits after
  rw [show word = c :: t from lower, show wholeDigits = c :: t from whole,
    show after = [] from rest, if_neg (not_or.2 ⟨other rfl, other rfl⟩), if_neg (other rfl)]
  simp [read, readPower?]

theorem literalOf?_numeral (nonzero : c ≠ '0') :
    Argument.literalOf? (Double.signed negative (c :: t)) = some (numeralValue negative n) := by
  have head : ∀ d ∈ (Double.signed negative (c :: t)).head?, d = '-' ∨ isDigit d = true :=
    fun d member => numeral_chars digits negative (List.mem_of_mem_head? member)
  have other {w : Text} (letters : ∃ d ∈ w.head?, d ≠ '-' ∧ isDigit d = false) :
      Double.signed negative (c :: t) ≠ w := by
    rintro rfl
    obtain ⟨d, first, minus, letter⟩ := letters
    rcases head d first with same | digit
    · exact minus same
    · rw [digit] at letter
      cases letter
  have visible : Argument.startsWithBareZero (Double.signed negative (c :: t)) = false := by
    cases negative with
    | true => rfl
    | false => cases t <;> simp [Double.signed, Argument.startsWithBareZero, nonzero]
  rw [Argument.literalOf?, if_neg (other ⟨'t', by decide⟩), if_neg (other ⟨'f', by decide⟩),
    visible, readWord?_numeral digits negative spelled, readDouble?_numeral digits negative spelled,
    numeralValue]
  by_cases fits : fitsWord (signedInt negative n) = true
  next =>
    rw [if_pos fits, if_pos fits]
    rfl
  next =>
    rw [if_neg fits, if_neg fits]
    rfl

end Numeral

theorem display_numeralValue {negative : Bool} {n : Nat} (counted : 0 < n)
    (fits : fitsWord (signedInt negative n) = true) :
    (numeralValue negative n).display = Double.signed negative (ofNat n) := by
  rw [numeralValue, if_pos fits]
  cases negative with
  | false => rfl
  | true =>
    obtain ⟨k, rfl⟩ : ∃ k, n = k + 1 := ⟨n - 1, by omega⟩
    rfl

theorem long_of_not_fits {negative : Bool} {n : Nat}
    (overflows : ¬ fitsWord (signedInt negative n) = true) : 2 ^ 63 ≤ n := by
  simp only [fitsWord, Bool.and_eq_true, decide_eq_true_eq, Nat.pow_eq] at overflows
  cases negative <;> simp only [signedInt] at overflows <;> push_cast at overflows <;> grind

theorem le_of_fits {negative : Bool} {n : Nat}
    (fits : fitsWord (signedInt negative n) = true) : n ≤ 2 ^ 63 := by
  simp only [fitsWord, Bool.and_eq_true, decide_eq_true_eq, Nat.pow_eq] at fits
  cases negative <;> simp only [signedInt] at fits <;> push_cast at fits <;> grind

end Decimal

section Written

variable {n v : Text} (named : isVariableName n = true) (visible : v ≠ [])
  (chars : ∀ c ∈ v, isVariableChar c = true) {w : Value} (literal : Argument.literalOf? v = some w)

include literal in
theorem Argument.parse_literal {e : Engine} {c : Context} : (ofLine v).parse e c = .ok w := by
  have own : (ofLine v).literal? = some w := literal
  rw [parse, own]

include literal in
theorem Config.define_literal (c : Config) : c.define n v = { c with vars := c.vars.set n w } := by
  rw [define, coerce, literal]
  rfl

include named chars in
theorem Config.applyLine_define (c : Config) :
    c.applyLine ("/set ".toList ++ (n ++ '=' :: v)) = .ok (c.define n v) := by
  have own {d : Char} (taken : isVariableChar d = true) : IsPlain d ∧ isBlank d = false :=
    ⟨isPlain_of_isVariableChar taken, isBlank_of_isVariableChar taken⟩
  have whole : ∀ d ∈ n ++ '=' :: v, IsPlain d ∧ isBlank d = false := by
    intro d member
    rcases List.mem_append.1 member with inName | rest
    · exact own (name_chars named d inName)
    · rcases List.mem_cons.1 rest with rfl | inValue
      · exact ⟨⟨by decide, by decide, rfl⟩, rfl⟩
      · exact own (chars d inValue)
  have words : splitWords (n ++ '=' :: v) = [n ++ '=' :: v] :=
    splitWords_solid (by simp) fun d member => (whole d member).1
  rw [applyLine_set (trim_solid fun d member => (whole d member).2), words, applySet_define named]

include named visible chars literal in
theorem Compiler.command_set_literal {quoted after : List Token}
    (said : paragraphs quoted = SetCommand.name ++ ' ' :: (n ++ ' ' :: v))
    (plain : fences after = []) (source : Text) (line : Nat) :
    ∃ cmd, command .builtin source line quoted after = .ok cmd ∧
      ∀ {s : Session} {c : Context} {u : Value}, (Argument.ofLine n).parse s.engine c = .ok u →
        cmd.execute s c = .done s (c.set u.display w) := by
  have solid : ∀ c ∈ v, isBlank c = false := fun c member =>
    isBlank_of_isVariableChar (chars c member)
  refine ⟨_, command_set named said source line after, fun {s c u} parsed => ?_⟩
  rw [trimEnd_solid solid, if_neg visible, trim_solid solid, plain, List.append_nil]
  exact SetCommand.execute_of_binds (.value parsed rfl (Argument.parse_literal literal))

end Written

-- Neither marker is empty, so one character holds no placeholder.
theorem Markers.nextSpan?_single (m : Markers) (c : Char) : m.nextSpan? [c] = none := by
  cases found : m.nextSpan? [c] with
  | none => rfl
  | some s =>
    have whole := congrArg List.length (eq_append_of_nextSpan? found)
    have opening := List.length_pos_iff.2 m.opening_ne_nil
    have closing := List.length_pos_iff.2 m.closing_ne_nil
    simp only [List.length_append, List.length_singleton] at whole
    omega

theorem Compiler.command_print_name {n : Text} {quoted after : List Token}
    (said : paragraphs quoted = PrintCommand.name ++ ' ' :: placeholderOf n)
    (plain : fences after = []) (source : Text) (line : Nat) :
    command .builtin source line quoted after = .ok (PrintCommand.ofName n) := by
  have whole : trimEnd (placeholderOf n) = placeholderOf n :=
    trimEnd_of_last fun c last => by
      have closed : placeholderOf n =
          (['\x7b', '\x7b', ' '] ++ n ++ [' ', '\x7d']) ++ ['\x7d'] := by simp [placeholderOf]
      rw [closed, List.getLast?_concat] at last
      cases last
      rfl
  have known : Catalog.builtin.resolve? PrintCommand.name = some .print := rfl
  rw [command_line known (by decide) (forall_of_any rfl) said
    (by rw [whole]; simp [placeholderOf]), whole, plain, List.append_nil]
  rfl

structure Binds (n s : Text) (v : Value) : Prop where
  command {quoted after : List Token} :
    Compiler.paragraphs quoted = SetCommand.name ++ ' ' :: (n ++ ' ' :: s) →
    Compiler.fences after = [] → ∀ source line,
    ∃ cmd, Compiler.command .builtin source line quoted after = .ok cmd ∧
      ∀ (u : Session) c, (n.length = 1 ∨ u.engine.markers = .default ∨
        u.engine.markers.nextSpan? n = none) →
          cmd.execute u c = .done u (c.set (boundName n) v)
  directive (c : Config) : c.applyLine ("/set ".toList ++ (n ++ '=' :: s)) =
    .ok { c with vars := c.vars.set n v }
  switch (o : CommandLine.Options) (more : List Text) :
    o.readFrom false (('-' :: 'D' :: (n ++ '=' :: s)) :: more) =
      ({ o with defines := o.defines ++ [(n, s)] } : CommandLine.Options).readFrom false more
  defined (o : CommandLine.Options) (c : Config) :
    CommandLine.Program.defined { o with defines := o.defines ++ [(n, s)] } c =
      { CommandLine.Program.defined o c with
        vars := (CommandLine.Program.defined o c).vars.set n v }

structure Prints (n : Text) (v : Value) : Prop where
  command {quoted after : List Token} :
    Compiler.paragraphs quoted = PrintCommand.name ++ ' ' :: placeholderOf n →
    Compiler.fences after = [] → ∀ source line,
    ∃ cmd, Compiler.command .builtin source line quoted after = .ok cmd ∧
      ∀ (r : Registry) (out : List Printed) (fault : Text → Text) (c : Context),
        cmd.execute ⟨⟨.default, r⟩, out, fault⟩ (c.set n v) =
          ⟨c.set n v, out ++ [⟨v.display, none⟩], none⟩
  marked {e : Engine} {lead trail : Text} :
    (∀ d ∈ lead, isBlank d = true) → (∀ d ∈ trail, isBlank d = true) → e.markers.HasNoStandIn →
    e.markers.Plain (lead ++ n ++ trail) → ∀ c : Context,
      e.interpolate (e.markers.opening ++ (lead ++ n ++ trail) ++ e.markers.closing)
        (c.set n v).vars = .ok v.display

/-- What is shown of a numeral. One that fits a word keeps its digits. Any other has become the
nearest number: infinity, or the whole number of the fewest digits that is rounded alike. -/
structure ShowsNumeral (negative : Bool) (k : Nat) (v : Value) : Prop where
  word : Decimal.fitsWord (Decimal.signedInt negative k) = true →
    v = .int (Decimal.signedInt negative k) ∧ v.display = Double.signed negative (ofNat k)
  long : Decimal.fitsWord (Decimal.signedInt negative k) = false →
    ∃ m e, Double.Normal m e ∧ Double.RoundsTo m e k ∧ v = .float (Double.limited negative m e)
  endless : Double.firstInfinite ≤ k → v.display = Double.signed negative "inf"
  rounded : Decimal.fitsWord (Decimal.signedInt negative k) = false → k < Double.firstInfinite →
    ∃ short, Double.Shortens negative k short ∧
      v.display = Double.signed negative (ofNat short) ∧
      (v.display = Double.signed negative (ofNat k) ↔ short = k)

theorem binds_literal {n s : Text} (named : isVariableName n = true) (visible : s ≠ [])
    (chars : ∀ c ∈ s, isVariableChar c = true) {v : Value}
    (literal : Argument.literalOf? s = some v) : Binds n s v where
  command said plain source line := by
    obtain ⟨cmd, compiled, executed⟩ :=
      Compiler.command_set_literal named visible chars literal said plain source line
    refine ⟨cmd, compiled, fun u c unmarked => ?_⟩
    have bare : u.engine.markers.nextSpan? n = none := by
      rcases unmarked with single | default | bare
      · obtain ⟨d, rfl⟩ := List.length_eq_one_iff.1 single
        exact u.engine.markers.nextSpan?_single d
      · rw [default]
        exact nextSpan?_name named
      · exact bare
    obtain ⟨w, parsed, shown⟩ := parse_bare_name named u.engine bare c
    rw [executed parsed, shown]
  directive c := by rw [Config.applyLine_define named chars, Config.define_literal literal]
  switch o more := CommandLine.Options.readFrom_define named o more
  defined o c := by rw [CommandLine.Program.defined_append, Config.define_literal literal]

theorem prints_bound {n : Text} (named : isVariableName n = true) (own : IsReadBack n) (v : Value) :
    Prints n v where
  command said plain source line := by
    refine ⟨_, Compiler.command_print_name said plain source line, fun r out fault c => ?_⟩
    rw [execute_print named, resolve_name named own.1]
    simp [Context.set]
  marked lead_blank trail_blank free plain c := by
    rw [interpolate_marked named lead_blank trail_blank free plain, resolve_name named own.1]
    simp [Context.set]

theorem signed_cancel {a b : Bool} {s t : Text} (left : '-' ∉ s) (right : '-' ∉ t)
    (same : Double.signed a s = Double.signed b t) : a = b ∧ s = t := by
  cases a <;> cases b
  · exact ⟨rfl, same⟩
  · have shape : s = '-' :: t := same
    exact absurd (by simp [shape]) left
  · have shape : '-' :: s = t := same
    exact absurd (by simp [← shape]) right
  · exact ⟨rfl, (List.cons.inj same).2⟩

theorem minus_not_mem_ofNat (n : Nat) : '-' ∉ ofNat n := fun member => by
  cases digits_ofNat n '-' member

theorem signed_injective {a b : Bool} {m n : Nat} :
    Double.signed a (ofNat m) = Double.signed b (ofNat n) ↔ a = b ∧ m = n := by
  refine ⟨fun same => ?_, by rintro ⟨rfl, rfl⟩; rfl⟩
  obtain ⟨signs, digits⟩ := signed_cancel (minus_not_mem_ofNat m) (minus_not_mem_ofNat n) same
  exact ⟨signs, ofNat_injective digits⟩

theorem showsNumeral {negative : Bool} {k : Nat} (counted : 0 < k) :
    ShowsNumeral negative k (Decimal.numeralValue negative k) where
  word fits := ⟨if_pos fits, Decimal.display_numeralValue counted fits⟩
  long overflows := by
    obtain ⟨m, e, normal, rounds, read⟩ := Double.exists_ofDecimal negative k 0
    rw [Double.ten_zpow_zero] at rounds
    exact ⟨m, e, normal, rounds, by rw [Decimal.numeralValue, overflows, ← read]; rfl⟩
  endless reached := by
    have overflows : ¬ Decimal.fitsWord (Decimal.signedInt negative k) = true := fun fits => by
      have bound : 2 ^ 63 < Double.firstInfinite := by decide +kernel
      exact absurd (reached.trans (Decimal.le_of_fits fits)) (not_le.2 bound)
    rw [Decimal.numeralValue, if_neg overflows, Double.ofDecimal_infinite reached]
    rfl
  rounded overflows within := by
    have value : Decimal.numeralValue negative k = .float (Double.ofDecimal negative k 0) :=
      if_neg (Bool.eq_false_iff.1 overflows)
    have long := Decimal.long_of_not_fits (Bool.eq_false_iff.1 overflows)
    obtain ⟨short, shown, least⟩ := Double.ofDecimal_long long within negative
    rw [value]
    change ∃ short, _ ∧ (Double.ofDecimal negative k 0).display = _ ∧
      ((Double.ofDecimal negative k 0).display = _ ↔ _)
    exact ⟨short, least, shown, by rw [shown, signed_injective, and_iff_right rfl]⟩

theorem numeral_keeps_or_rounds {n s : Text} (named : isVariableName n = true)
    (numeral : Decimal.IsNumeral s) :
    ∃ negative k v, 0 < k ∧ s = Double.signed negative (ofNat k) ∧ Binds n s v ∧
      (IsReadBack n → Prints n v) ∧ ShowsNumeral negative k v := by
  obtain ⟨negative, c, t, rfl, nonzero, digits⟩ := numeral
  obtain ⟨k, counted, spelled⟩ := exists_ofNat nonzero digits
  have chars : ∀ d ∈ Double.signed negative (c :: t), isVariableChar d = true := fun d member => by
    rcases Decimal.numeral_chars digits negative member with rfl | digit
    · decide
    · simp [isVariableChar, isNameChar, digit]
  have visible : Double.signed negative (c :: t) ≠ [] := by cases negative <;> simp [Double.signed]
  have literal := Decimal.literalOf?_numeral digits negative spelled nonzero
  exact ⟨negative, k, Decimal.numeralValue negative k, counted, by rw [spelled],
    binds_literal named visible chars literal, fun own => prints_bound named own _,
    showsNumeral counted⟩

theorem numeral_keeps_or_rounds_word :
    let s := "-9223372036854775808".toList
    isVariableName "x".toList = true ∧ Decimal.IsNumeral s ∧
      ∃ v, Binds "x" s v ∧ Prints "x" v ∧ v = .int (-9223372036854775808) ∧ v.display = s := by
  intro s
  have named : isVariableName "x".toList = true := by decide
  have numeral : Decimal.IsNumeral s :=
    ⟨true, '9', "223372036854775808".toList, rfl, by decide, List.all_eq_true.1 rfl⟩
  obtain ⟨negative, k, v, -, spelled, binds, prints, shows⟩ :=
    numeral_keeps_or_rounds named numeral
  have digits : s = Double.signed true (ofNat 9223372036854775808) := by decide +kernel
  obtain ⟨rfl, rfl⟩ := signed_injective.1 (spelled.symm.trans digits)
  obtain ⟨word, shown⟩ := shows.word (by decide)
  exact ⟨named, numeral, v, binds, prints ⟨by decide, by decide, by decide⟩, word,
    shown.trans digits.symm⟩

theorem numeral_not_kept :
    let s := "9223372036854775808".toList
    let u := Session.new ⟨.default, .empty⟩ id
    let after := ((SetCommand.ofLine "x" s).execute u .empty).context
    Decimal.IsNumeral s ∧
      (after.get? "x").map Value.display = some "9223372036854776000".toList ∧
      "9223372036854776000".toList ≠ s := by
  intro s u after
  have digits : ∀ d ∈ s, isDigit d = true := List.all_eq_true.1 rfl
  have spelled : ofNat 9223372036854775808 = s := by decide +kernel
  have literal : Argument.literalOf? s = some (Decimal.numeralValue false 9223372036854775808) :=
    Decimal.literalOf?_numeral digits false spelled (by decide)
  have executed : (SetCommand.ofLine "x" s).execute u .empty =
      .done u (Context.empty.set "x" (Decimal.numeralValue false 9223372036854775808)) := by
    have bound := execute_set (by decide : isVariableName "x".toList = true) .empty [] id .empty s
    rw [if_neg (by decide), trim_solid (forall_of_any rfl), Argument.parse_literal literal] at bound
    exact bound
  have shown : (Decimal.numeralValue false 9223372036854775808).display =
      "9223372036854776000".toList := by
    decide +kernel
  refine ⟨⟨false, '9', "223372036854775808".toList, rfl, by decide, digits⟩, ?_, by decide⟩
  simp only [after, executed]
  rw [← shown]
  rfl

end Docspec
