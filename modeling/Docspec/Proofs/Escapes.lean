import Docspec.Placeholder.Markers
import Docspec.Proofs.Scanning

set_option autoImplicit false

namespace Docspec

open Text

namespace Markers

def Plain (m : Markers) (t : Text) : Prop :=
  ∀ c ∈ t, c ∉ m.opening ∧ c ∉ m.closing ∧ c ≠ backtick ∧ isStandIn c = false

def HasNoStandIn (m : Markers) : Prop := ∀ c ∈ m.opening ++ m.closing, isStandIn c = false

-- Only the characters of the text are tried; an inferred instance may try all there are.
instance (m : Markers) (t : Text) : Decidable (m.Plain t) :=
  List.decidableBAll
    (fun c => c ∉ m.opening ∧ c ∉ m.closing ∧ c ≠ backtick ∧ isStandIn c = false) t

instance (m : Markers) : Decidable m.HasNoStandIn :=
  List.decidableBAll (fun c => isStandIn c = false) (m.opening ++ m.closing)

def Unmarked (t : Text) : Prop := ∀ c ∈ t, c ≠ backtick ∧ isStandIn c = false

instance (t : Text) : Decidable (Unmarked t) :=
  List.decidableBAll (fun c => c ≠ backtick ∧ isStandIn c = false) t

section Plain

variable {m : Markers} {t : Text}

theorem Unmarked.no_backtick (unmarked : Unmarked t) : backtick ∉ t :=
  fun member => (unmarked _ member).1 rfl

theorem Unmarked.no_standIn (unmarked : Unmarked t) : ∀ c ∈ t, isStandIn c = false :=
  fun c member => (unmarked c member).2

theorem Unmarked.append {a b : Text} (left : Unmarked a) (right : Unmarked b) :
    Unmarked (a ++ b) :=
  List.forall_mem_append.2 ⟨left, right⟩

theorem Plain.apart_opening (plain : m.Plain t) : Apart m.opening t :=
  fun c member => (plain c member).1

theorem Plain.apart_closing (plain : m.Plain t) : Apart m.closing t :=
  fun c member => (plain c member).2.1

theorem Plain.unmarked (plain : m.Plain t) : Unmarked t :=
  fun c member => (plain c member).2.2

theorem Plain.no_backtick (plain : m.Plain t) : backtick ∉ t := plain.unmarked.no_backtick

theorem Plain.no_standIn (plain : m.Plain t) : ∀ c ∈ t, isStandIn c = false :=
  plain.unmarked.no_standIn

end Plain

theorem byteLength_replicate (n : Nat) {c : Char} (narrow : c.utf8Size = 1) :
    byteLength (List.replicate n c) = n := by
  induction n with
  | zero => rfl
  | succ n ih =>
    simp only [List.replicate_succ, byteLength_cons, narrow, ih]
    omega

theorem openingRun_cons (m : Markers) : ∃ run, m.openingRun = openingStandIn :: run :=
  ⟨List.replicate (byteLength (m.opening ++ [backtick])) openingStandIn, by
    rw [openingRun, escaped, List.cons_append, byteLength_cons,
      show backtick.utf8Size = 1 from rfl, Nat.add_comm, List.replicate_succ]⟩

theorem closingRun_cons (m : Markers) : ∃ run, m.closingRun = closingStandIn :: run :=
  ⟨List.replicate (byteLength (m.closing ++ [backtick])) closingStandIn, by
    rw [closingRun, escaped, List.cons_append, byteLength_cons,
      show backtick.utf8Size = 1 from rfl, Nat.add_comm, List.replicate_succ]⟩

theorem escape_append (m : Markers) {a : Text} (plain : backtick ∉ a) (t : Text) :
    m.escape (a ++ t) = a ++ m.escape t := by
  apply substitute_append
  intro rule member
  simp only [List.mem_cons, List.not_mem_nil, or_false] at member
  rcases member with rfl | rfl <;> exact ⟨backtick, _, rfl, plain⟩

def unquoted (m : Markers) (opening closing t : Text) : Text :=
  substitute [(escaped m.opening, opening), (escaped m.closing, closing)] t

theorem startsWith_escaped_closing (m : Markers) (t : Text) :
    startsWith (escaped m.opening) (escaped m.closing ++ t) = false := by
  rw [startsWith, ← Bool.not_eq_true, Option.isSome_iff_exists]
  rintro ⟨r, found⟩
  -- The backtick behind a marker is the first one in it, so equal texts have equal markers.
  have same : m.closing ++ backtick :: t = m.opening ++ backtick :: r := by
    simpa [escaped] using stripFront?_eq_some_iff.1 found
  have first (a b : Text) (absent : backtick ∉ a) :
      (a ++ backtick :: b).takeWhile (· ≠ backtick) = a := by
    rw [List.takeWhile_append_of_pos]
    next => simp
    next =>
      intro c member
      simpa using fun equal : c = backtick => absent (equal ▸ member)
  apply m.opening_ne_closing
  rw [← first m.opening r m.no_backtick.1, ← first m.closing t m.no_backtick.2, same]

section Unquoted

variable (m : Markers) (opening closing t : Text)

theorem unquoted_opening :
    m.unquoted opening closing (escaped m.opening ++ t) =
      opening ++ m.unquoted opening closing t := by
  apply substitute_rule (by simp [escaped])
  simp [firstRule?]

theorem unquoted_closing :
    m.unquoted opening closing (escaped m.closing ++ t) =
      closing ++ m.unquoted opening closing t := by
  apply substitute_rule (by simp [escaped])
  simp [firstRule?, m.startsWith_escaped_closing t]

end Unquoted

theorem escape_opening (m : Markers) (t : Text) :
    m.escape (escaped m.opening ++ t) = m.openingRun ++ m.escape t :=
  m.unquoted_opening _ _ t

theorem escape_closing (m : Markers) (t : Text) :
    m.escape (escaped m.closing ++ t) = m.closingRun ++ m.escape t :=
  m.unquoted_closing _ _ t

theorem unescape_append (m : Markers) {a : Text} (plain : ∀ c ∈ a, isStandIn c = false)
    (t : Text) : m.unescape (a ++ t) = a ++ m.unescape t := by
  have absent {c : Char} (standIn : isStandIn c = true) : c ∉ a := by
    intro member
    simp [plain c member] at standIn
  apply substitute_append
  intro rule member
  simp only [List.mem_cons, List.not_mem_nil, or_false] at member
  rcases member with rfl | rfl
  · obtain ⟨run, shape⟩ := m.openingRun_cons
    exact ⟨openingStandIn, run, shape, absent rfl⟩
  · obtain ⟨run, shape⟩ := m.closingRun_cons
    exact ⟨closingStandIn, run, shape, absent rfl⟩

theorem unescape_opening (m : Markers) (t : Text) :
    m.unescape (m.openingRun ++ t) = m.opening ++ m.unescape t := by
  obtain ⟨run, shape⟩ := m.openingRun_cons
  apply substitute_rule (by simp [shape])
  simp [firstRule?]

theorem unescape_closing (m : Markers) (t : Text) :
    m.unescape (m.closingRun ++ t) = m.closing ++ m.unescape t := by
  obtain ⟨openings, shapeOpening⟩ := m.openingRun_cons
  obtain ⟨closings, shapeClosing⟩ := m.closingRun_cons
  have unmatched : startsWith m.openingRun (m.closingRun ++ t) = false := by
    simp [shapeOpening, shapeClosing, startsWith, stripFront?, openingStandIn, closingStandIn]
  apply substitute_rule (by simp [shapeClosing])
  simp [firstRule?, unmatched]

theorem nextSpan?_append (m : Markers) {before : Text} (apart : Apart m.opening before)
    (t : Text) : m.nextSpan? (before ++ t) =
      (m.nextSpan? t).map fun s => { s with before := before ++ s.before } := by
  rw [nextSpan?, cut?_append m.opening_ne_nil apart, nextSpan?]
  cases cut? m.opening t with
  | none => rfl
  | some parts =>
    simp only [Option.map_some]
    cases cut? m.closing parts.2 with
    | none => rfl
    | some inner =>
      simp only
      cases cutLast? m.opening inner.1 with
      | none => rfl
      | some last => simp

theorem nextSpan?_nil (m : Markers) : m.nextSpan? [] = none := by
  simp [nextSpan?, cut?, m.opening_ne_nil]

theorem nextSpan?_placeholder (m : Markers) {body : Text} (plain : m.Plain body) (t : Text) :
    m.nextSpan? (m.opening ++ body ++ m.closing ++ t) = some ⟨[], body, t⟩ := by
  have outer : cut? m.opening (m.opening ++ body ++ m.closing ++ t) =
      some ([], body ++ (m.closing ++ t)) := by
    simpa using cut?_self m.opening (body ++ (m.closing ++ t))
  have inner : cut? m.closing (body ++ (m.closing ++ t)) = some (body, t) := by
    rw [cut?_append m.closing_ne_nil plain.apart_closing, cut?_self]
    simp
  simp only [nextSpan?, outer, inner, cutLast?_eq_none m.opening_ne_nil plain.apart_opening]

end Markers

end Docspec
