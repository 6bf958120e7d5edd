import Docspec.Command.Catalog
import Docspec.Proofs.Segments
import Docspec.Proofs.Trimming

set_option autoImplicit false

namespace Docspec

namespace Text

theorem asciiLower_of_no_upper {t : Text} (free : ∀ c ∈ t, isAsciiUpper c = false) :
    asciiLower t = t := by
  refine (List.map_congr_left fun c member => ?_).trans (List.map_id t)
  rw [free c member]
  rfl

theorem not_mem_of_splitAll {sep : Char} {t first : Text} {more : List Text}
    (pieces : splitAll sep t = first :: more) : sep ∉ first := by
  induction t generalizing first more with
  | nil =>
    obtain ⟨rfl, -⟩ := List.cons.inj pieces
    simp
  | cons c t ih =>
    rw [splitAll] at pieces
    split at pieces
    next =>
      obtain ⟨rfl, -⟩ := List.cons.inj pieces
      simp
    next differ =>
      cases rest : splitAll sep t with
      | nil => exact absurd rest (splitAll_ne_nil sep t)
      | cons piece later =>
        rw [rest] at pieces
        obtain ⟨rfl, -⟩ := List.cons.inj pieces
        have tail := ih rest
        simp [tail, Ne.symm differ]

theorem splitOnce_eq_none {p : Char → Bool} {t : Text} (none : ∀ c ∈ t, p c = false) :
    splitOnce p t = Option.none := by
  induction t with
  | nil => rfl
  | cons c t ih =>
    rw [splitOnce, ih fun d member => none d (by simp [member])]
    simp [none c (by simp)]

end Text

namespace Placeholder

open Text

def isVariableName : Text → Bool
  | [] => false
  | c :: t => isNameStart c && t.all isVariableChar

theorem toNat_of_isVariableChar {c : Char} (taken : isVariableChar c = true) :
    (97 ≤ c.toNat ∧ c.toNat ≤ 122) ∨ c.toNat = 95 ∨ (48 ≤ c.toNat ∧ c.toNat ≤ 57) ∨
      c.toNat = 45 ∨ c.toNat = 46 := by
  simp only [isVariableChar, isNameChar, isNameStart, isAsciiLower, isDigit, Bool.or_eq_true,
    Bool.and_eq_true, decide_eq_true_eq, beq_iff_eq, Char.le_def, UInt32.le_iff_toNat_le] at taken
  rcases taken with (((lower | rfl) | digit) | rfl) | rfl
  · exact .inl lower
  · exact .inr (.inl rfl)
  · exact .inr (.inr (.inl digit))
  · exact .inr (.inr (.inr (.inl rfl)))
  · exact .inr (.inr (.inr (.inr rfl)))

theorem ne_of_isVariableChar {c d : Char} (taken : isVariableChar c = true)
    (other : isVariableChar d = false) : c ≠ d := by
  rintro rfl
  simp [taken] at other

theorem isBlank_of_isVariableChar {c : Char} (taken : isVariableChar c = true) :
    isBlank c = false := by
  have code := toNat_of_isVariableChar taken
  simp only [isBlank, Bool.or_eq_false_iff, Bool.and_eq_false_iff, decide_eq_false_iff_not,
    beq_eq_false_iff_ne]
  omega

theorem isAsciiUpper_of_isVariableChar {c : Char} (taken : isVariableChar c = true) :
    isAsciiUpper c = false := by
  have code := toNat_of_isVariableChar taken
  simp only [isAsciiUpper, Bool.and_eq_false_iff, decide_eq_false_iff_not, Char.le_def,
    UInt32.le_iff_toNat_le]
  change ¬ 65 ≤ c.toNat ∨ ¬ c.toNat ≤ 90
  omega

theorem isDigit_of_isNameStart {c : Char} (start : isNameStart c = true) : isDigit c = false := by
  simp only [isNameStart, isAsciiLower, Bool.or_eq_true, Bool.and_eq_true, decide_eq_true_eq,
    beq_iff_eq, Char.le_def, UInt32.le_iff_toNat_le] at start
  rcases start with ⟨low, -⟩ | rfl
  · simp only [isDigit, Bool.and_eq_false_iff, decide_eq_false_iff_not, Char.le_def,
      UInt32.le_iff_toNat_le]
    change 97 ≤ c.toNat at low
    change ¬ 48 ≤ c.toNat ∨ ¬ c.toNat ≤ 57
    omega
  · rfl

theorem ne_of_isNameStart {c d : Char} (start : isNameStart c = true)
    (other : isNameStart d = false) : c ≠ d := by
  rintro rfl
  simp [start] at other

theorem isVariableChar_of_isNameStart {c : Char} (start : isNameStart c = true) :
    isVariableChar c = true := by
  simp [isVariableChar, isNameChar, start]

section Name

variable {n : Text} (named : isVariableName n = true)
include named

theorem name_start : ∃ c t, n = c :: t ∧ isNameStart c = true := by
  cases n with
  | nil => simp [isVariableName] at named
  | cons c t => exact ⟨c, t, rfl, (Bool.and_eq_true_iff.1 named).1⟩

theorem name_chars : ∀ c ∈ n, isVariableChar c = true := by
  cases n with
  | nil => simp
  | cons c t =>
    obtain ⟨start, rest⟩ := Bool.and_eq_true_iff.1 named
    exact List.forall_mem_cons.2 ⟨isVariableChar_of_isNameStart start, List.all_eq_true.1 rest⟩

theorem name_not_mem {c : Char} (other : isVariableChar c = false) : c ∉ n := fun member =>
  ne_of_isVariableChar (name_chars named c member) other rfl

theorem name_no_blank : ∀ c ∈ n, isBlank c = false := fun c member =>
  isBlank_of_isVariableChar (name_chars named c member)

theorem trim_name : trim n = n := trim_solid (name_no_blank named)

theorem name_plain : Markers.default.Plain n := by
  intro c member
  have differ (d : Char) (other : isVariableChar d = false) : c ≠ d :=
    ne_of_isVariableChar (name_chars named c member) other
  refine ⟨?_, ?_, differ _ (by decide), ?_⟩
  · simp [Markers.default, differ '\x7b' (by decide)]
  · simp [Markers.default, differ '\x7d' (by decide)]
  · simp [Markers.isStandIn, differ Markers.openingStandIn (by decide),
      differ Markers.closingStandIn (by decide)]

end Name

theorem Body.call?_eq_none {t : Text} (absent : '(' ∉ t) : call? t = none := by
  have rest : '(' ∉ t.dropWhile isNameChar := fun member =>
    absent ((List.dropWhile_sublist _).subset member)
  rw [call?]
  cases shape : t.dropWhile isNameChar with
  | nil => rfl
  | cons c r =>
    rw [shape, List.mem_cons, not_or] at rest
    by_cases blank : isBlank c = true
    next =>
      cases r with
      | nil => simp [blank]
      | cons d r =>
        have differ : d ≠ '(' := fun same => rest.2 (by simp [same])
        simp [blank, differ]
    next =>
      have differ : c ≠ '(' := fun same => rest.1 same.symm
      simp [blank, differ]

def placeholderOf (n : Text) : Text := ['\x7b', '\x7b', ' '] ++ n ++ [' ', '\x7d', '\x7d']

theorem parse?_name {n : Text} (named : isVariableName n = true) :
    Body.parse? (' ' :: n ++ [' ']) = some ⟨n, [], [], 2 + byteLength n⟩ := by
  obtain ⟨c, t, shape, start⟩ := name_start named
  have content : trimStart (' ' :: n ++ [' ']) = n ++ [' '] := by
    have bare : isBlank c = false := name_no_blank named c (by simp [shape])
    simp [trimStart, shape, bare, show isBlank ' ' = true from rfl]
  have noCall : Body.call? (n ++ [' ']) = none := by
    apply Body.call?_eq_none
    simp [name_not_mem named (c := '(') (by decide)]
  have identifier : Body.takeIdentifier (n ++ [' ']) = (n, [' ']) := by
    have blank : isVariableChar ' ' = false := by decide
    rw [Body.takeIdentifier, noCall, List.takeWhile_append_of_pos (name_chars named),
      List.dropWhile_append_of_pos (name_chars named)]
    simp [blank]
  have parsed : Body.parse? (' ' :: n ++ [' ']) =
      some ⟨trim n, [], [], byteLength (' ' :: n ++ [' ']) - byteLength []⟩ := by
    rw [Body.parse?, content]
    simp only [shape, List.cons_append, start, if_true]
    rw [← List.cons_append, ← shape, identifier]
    rfl
  have size : byteLength (' ' :: n ++ [' ']) - byteLength [] = 2 + byteLength n := by
    have one : ' '.utf8Size = 1 := rfl
    simp only [List.cons_append, byteLength_cons, byteLength_append, byteLength_nil, one]
    omega
  rw [parsed, trim_name named, size]

theorem default_no_standIn : Markers.default.HasNoStandIn := by decide

theorem spaced_name_plain {n : Text} (named : isVariableName n = true) :
    Markers.default.Plain (' ' :: n ++ [' ']) := by
  have blank : Markers.default.Plain [' '] := by decide
  intro c member
  simp only [List.cons_append, List.mem_cons, List.mem_append, List.not_mem_nil, or_false]
    at member
  rcases member with rfl | inName | rfl
  · exact blank _ List.mem_cons_self
  · exact name_plain named c inName
  · exact blank _ List.mem_cons_self

theorem interpolate_placeholderOf {n : Text} (named : isVariableName n = true) (r : Registry)
    (vars : Vars) :
    Engine.interpolate ⟨.default, r⟩ (placeholderOf n) vars =
      Engine.resolve ⟨.default, r⟩ vars n := by
  let e : Engine := ⟨.default, r⟩
  have free : e.markers.HasNoStandIn := default_no_standIn
  have plain : (Segment.placeholder (' ' :: n ++ [' '])).Plain e.markers := spaced_name_plain named
  have written : placeholderOf n = (Segment.placeholder (' ' :: n ++ [' '])).text e.markers := by
    simp [placeholderOf, Segment.text, e, Markers.default]
  rw [written, Segment.interpolate_text free plain, Segment.outcome, parse?_name named]
  simp only [Engine.expand, ne_eq, not_true_eq_false, if_false]
  cases Engine.resolve ⟨.default, r⟩ vars n <;> rfl

theorem nextSpan?_name {n : Text} (named : isVariableName n = true) :
    Markers.default.nextSpan? n = none := by
  have unopened : cut? Markers.default.opening n = none :=
    cut?_eq_none_of_apart (by decide) (name_plain named).apart_opening
  simp only [Markers.nextSpan?, unopened]

theorem interpolate_bare_name {n : Text} (named : isVariableName n = true) (e : Engine)
    (bare : e.markers.nextSpan? n = none) (vars : Vars) : e.interpolate n vars = .ok n :=
  e.interpolate_of_no_span vars (name_plain named).unmarked bare

theorem resolve_name {n : Text} (named : isVariableName n = true) (whole : '.' ∉ n) (e : Engine)
    (vars : Vars) : e.resolve vars n = .ok ((Bindings.get? n vars).getD .null).display := by
  have noCall : n.getLast? ≠ some ')' := fun last =>
    name_not_mem named (by decide) (List.mem_of_getLast? last)
  rw [Engine.resolve, if_neg whole]
  cases Bindings.get? n vars with
  | some v => rfl
  | none => exact if_neg noCall

theorem resolve_dotted_insert {n : Text} (dotted : '.' ∈ n) (e : Engine) (vars : Vars)
    (v : Value) : e.resolve (Bindings.insert n v vars) n = e.resolve vars n := by
  rw [Engine.resolve, Engine.resolve, if_pos dotted, if_pos dotted]
  cases pieces : splitAll '.' n with
  | nil => rfl
  | cons first path =>
    have other : first ≠ n := by
      rintro rfl
      exact not_mem_of_splitAll pieces dotted
    simp only [Bindings.get?_insert, if_neg other]

end Placeholder

namespace Argument

open Text Placeholder

section Name

variable {n : Text} (named : isVariableName n = true)
include named

theorem name_digits : digits? n = none := by
  obtain ⟨c, t, rfl, start⟩ := name_start named
  simp [digits?, isDigit_of_isNameStart start]

theorem name_takeSign : Decimal.takeSign n = (false, n) := by
  obtain ⟨c, t, rfl, start⟩ := name_start named
  have plus : c ≠ '+' := ne_of_isNameStart start (by decide)
  have minus : c ≠ '-' := ne_of_isNameStart start (by decide)
  simp [Decimal.takeSign, plus, minus]

theorem readDouble?_name :
    Decimal.readDouble? n =
      if n = "inf".toList ∨ n = "infinity".toList then some (.infinite false)
      else if n = "nan".toList then some .nan
      else none := by
  have lower : asciiLower n = n := asciiLower_of_no_upper fun c member =>
    isAsciiUpper_of_isVariableChar (name_chars named c member)
  obtain ⟨c, t, shape, start⟩ := name_start named
  have digit := isDigit_of_isNameStart start
  have point : c ≠ '.' := ne_of_isNameStart start (by decide)
  have whole : n.takeWhile isDigit = [] := by simp [shape, digit]
  have rest : n.dropWhile isDigit = c :: t := by simp [shape, digit]
  rw [Decimal.readDouble?, name_takeSign named]
  change Decimal.readUnsigned? false n = _
  unfold Decimal.readUnsigned?
  extract_lets word wholeDigits after
  rw [show word = n from lower]
  split
  next => rfl
  next =>
    split
    next => rfl
    next =>
      rw [show after = c :: t from rest, show wholeDigits = [] from whole]
      split
      next fraction power shape =>
        split at shape
        next r same => exact absurd (List.cons.inj same).1 point
        next =>
          obtain ⟨rfl, -⟩ := Prod.mk.inj shape
          rfl

theorem literalOf?_name :
    literalOf? n =
      if n = "true".toList then some (.bool true)
      else if n = "false".toList then some (.bool false)
      else if n = "inf".toList ∨ n = "infinity".toList then some (.float (.infinite false))
      else if n = "nan".toList then some (.float .nan)
      else none := by
  have noZero : startsWithBareZero n = false := by
    obtain ⟨c, t, rfl, start⟩ := name_start named
    have zero : c ≠ '0' := ne_of_isNameStart start (by decide)
    cases t <;> simp [startsWithBareZero, zero]
  have noInt : Decimal.readWord? n = none := by
    simp [Decimal.readWord?, Decimal.readInt?, name_takeSign named, name_digits named]
  rw [literalOf?, noZero, noInt, readDouble?_name named]
  split
  next => rfl
  next =>
    split
    next => rfl
    next =>
      change Option.map Value.float _ = _
      split
      next => rfl
      next => split <;> rfl

end Name

end Argument

end Docspec
