import Docspec.Proofs.Copies
import Docspec.Proofs.Quoting

set_option autoImplicit false

namespace Docspec

open Text

namespace Text

theorem containsText_cons (pat : Text) (c : Char) (t : Text) :
    containsText pat (c :: t) = (startsWith pat (c :: t) || containsText pat t) := by
  rw [containsText, containsText, cut?, startsWith]
  cases stripFront? pat (c :: t) with
  | none => simp
  | some rest => rfl

theorem containsText_append (pat a b : Text) (inside : containsText pat b = true) :
    containsText pat (a ++ b) = true := by
  induction a with
  | nil => exact inside
  | cons c a ih => rw [List.cons_append, containsText_cons, ih, Bool.or_true]

theorem containsText_self (pat t : Text) : containsText pat (pat ++ t) = true := by
  rw [containsText, cut?_self]
  rfl

theorem eq_of_byteLength {a b c d : Text} (same : a ++ b = c ++ d)
    (size : byteLength a = byteLength c) : a = c ∧ b = d := by
  have none {t : Text} (empty : byteLength t = 0) : t = [] := by
    cases t with
    | nil => rfl
    | cons x t =>
      have positive := Char.utf8Size_pos x
      rw [byteLength_cons] at empty
      omega
  rcases List.append_eq_append_iff.1 same with ⟨x, rfl, rfl⟩ | ⟨x, rfl, rfl⟩
  · obtain rfl := none (t := x) (by rw [byteLength_append] at size; omega)
    simp
  · obtain rfl := none (t := x) (by rw [byteLength_append] at size; omega)
    simp

end Text

namespace Markers

def HasEscape (m : Markers) (t : Text) : Prop :=
  ∃ marker, m.IsMarker marker ∧ containsText (escaped marker) t = true

def restored (m : Markers) (t : Text) : Text := m.unquoted m.opening m.closing t

def Unescaped (m : Markers) (t : Text) : Prop :=
  ∀ marker, m.IsMarker marker → startsWith (escaped marker) t = false

/-- A text as a search from the left for escaped markers takes it apart. -/
inductive Searched (m : Markers) : Text → Prop
  | nil : Searched m []
  | escape {marker t : Text} : m.IsMarker marker → Searched m t → Searched m (escaped marker ++ t)
  | char {c : Char} {t : Text} : m.Unescaped (c :: t) → Searched m t → Searched m (c :: t)

inductive EscapeAt (m : Markers) : Text → Text → Text → Text → Prop
  | here {marker b : Text} : m.IsMarker marker → EscapeAt m (escaped marker ++ b) [] marker b
  | escape {other t a marker b : Text} : m.IsMarker other → EscapeAt m t a marker b →
    EscapeAt m (escaped other ++ t) (escaped other ++ a) marker b
  | char {c : Char} {t a marker b : Text} : m.Unescaped (c :: t) → EscapeAt m t a marker b →
    EscapeAt m (c :: t) (c :: a) marker b

section Search

variable {m : Markers} {t : Text}

theorem Unescaped.left {a b : Text} (unescaped : m.Unescaped (a ++ b)) : m.Unescaped a :=
  fun marker isMarker => Bool.eq_false_iff.2 fun begins => by
    simpa [startsWith_append_right begins b] using unescaped marker isMarker

theorem unquoted_char (opening closing : Text) {c : Char} (unescaped : m.Unescaped (c :: t)) :
    m.unquoted opening closing (c :: t) = c :: m.unquoted opening closing t :=
  substitute_char (by simp [firstRule?, unescaped _ (.inl rfl), unescaped _ (.inr rfl)])

theorem searched (m : Markers) (t : Text) : m.Searched t := by
  have done := m.escape_substituted t
  generalize m.escape t = copy at done
  induction done with
  | nil => exact .nil
  | rule found _ ih =>
    have isMarker : ∀ rule ∈ m.escapeRules, ∃ marker, rule.1 = escaped marker ∧ m.IsMarker marker :=
      forall_escapeRules ⟨_, rfl, .inl rfl⟩ ⟨_, rfl, .inr rfl⟩
    obtain ⟨marker, rfl, own⟩ := isMarker _ (mem_of_firstRule? found).1
    exact .escape own ih
  | char unmatched _ ih =>
    refine .char (fun marker own => ?_) ih
    rw [firstRule?, List.find?_eq_none] at unmatched
    have absent : ∀ rule ∈ m.escapeRules, startsWith rule.1 _ = false := fun rule member => by
      simpa using unmatched rule member
    rcases own with rfl | rfl
    · exact absent (escaped m.opening, m.openingRun) (by simp [escapeRules])
    · exact absent (escaped m.closing, m.closingRun) (by simp [escapeRules])

theorem escape_char_of_unescaped {c : Char} (unescaped : m.Unescaped (c :: t)) :
    m.escape (c :: t) = c :: m.escape t :=
  unquoted_char _ _ unescaped

theorem restored_char {c : Char} (unescaped : m.Unescaped (c :: t)) :
    m.restored (c :: t) = c :: m.restored t :=
  unquoted_char _ _ unescaped

theorem restored_escaped {marker : Text} (isMarker : m.IsMarker marker) (t : Text) :
    m.restored (escaped marker ++ t) = marker ++ m.restored t := by
  rcases isMarker with rfl | rfl
  · exact m.unquoted_opening _ _ t
  · exact m.unquoted_closing _ _ t

theorem escape_escaped {marker : Text} (isMarker : m.IsMarker marker) :
    ∃ c run, (∀ t, m.escape (escaped marker ++ t) = c :: run ++ m.escape t) ∧
      ∀ d ∈ c :: run, isStandIn d = true := by
  rcases isMarker with rfl | rfl
  · obtain ⟨run, shape⟩ := m.openingRun_cons
    refine ⟨_, run, fun t => by rw [escape_opening, shape], fun d member => ?_⟩
    rw [← shape] at member
    rw [List.eq_of_mem_replicate member]
    rfl
  · obtain ⟨run, shape⟩ := m.closingRun_cons
    refine ⟨_, run, fun t => by rw [escape_closing, shape], fun d member => ?_⟩
    rw [← shape] at member
    rw [List.eq_of_mem_replicate member]
    rfl

theorem unescape_escape (bare : ∀ c ∈ t, isStandIn c = false) :
    m.unescape (m.escape t) = m.restored t := by
  induction m.searched t with
  | nil => rfl
  | escape isMarker _ ih =>
    have rest := ih fun c member => bare c (List.mem_append_right _ member)
    rw [restored_escaped isMarker, ← rest]
    rcases isMarker with rfl | rfl
    · rw [escape_opening, unescape_opening]
    · rw [escape_closing, unescape_closing]
  | @char c t unescaped _ ih =>
    have rest := ih fun c member => bare c (List.mem_cons_of_mem _ member)
    have own := m.unescape_append (a := [c]) (by simpa using bare c (by simp)) (m.escape t)
    rw [escape_char_of_unescaped unescaped, restored_char unescaped, ← rest]
    exact own

theorem restored_bare (free : m.HasNoStandIn) (bare : ∀ c ∈ t, isStandIn c = false) :
    ∀ c ∈ m.restored t, isStandIn c = false := by
  induction m.searched t with
  | nil => exact bare
  | @escape marker t isMarker _ ih =>
    have rest := ih fun c member => bare c (List.mem_append_right _ member)
    have own : ∀ c ∈ marker, isStandIn c = false := by
      obtain ⟨opening, closing⟩ := List.forall_mem_append.1 free
      rcases isMarker with rfl | rfl
      · exact opening
      · exact closing
    rw [restored_escaped isMarker]
    exact List.forall_mem_append.2 ⟨own, rest⟩
  | char unescaped _ ih =>
    obtain ⟨own, others⟩ := List.forall_mem_cons.1 bare
    rw [restored_char unescaped]
    exact List.forall_mem_cons.2 ⟨own, ih others⟩

theorem HasEscape.behind {c : Char} (has : m.HasEscape t) : m.HasEscape (c :: t) := by
  obtain ⟨marker, isMarker, inside⟩ := has
  exact ⟨marker, isMarker, containsText_append _ [c] t inside⟩

theorem hasEscape_char {c : Char} (unescaped : m.Unescaped (c :: t)) :
    m.HasEscape (c :: t) ↔ m.HasEscape t := by
  refine ⟨fun ⟨marker, isMarker, inside⟩ => ⟨marker, isMarker, ?_⟩, HasEscape.behind⟩
  rwa [containsText_cons, unescaped marker isMarker, Bool.false_or] at inside

theorem hasEscape_nil : ¬ m.HasEscape [] := by
  rintro ⟨marker, -, inside⟩
  simp [containsText, cut?, escaped] at inside

theorem standIn_mem_escape_iff (bare : ∀ c ∈ t, isStandIn c = false) :
    (∃ c ∈ m.escape t, isStandIn c = true) ↔ m.HasEscape t := by
  induction m.searched t with
  | nil => exact iff_of_false (by rintro ⟨c, member, -⟩; cases member) hasEscape_nil
  | @escape marker t isMarker _ _ =>
    obtain ⟨c, run, copy, standIn⟩ := m.escape_escaped isMarker
    refine iff_of_true ⟨c, ?_, standIn c List.mem_cons_self⟩
      ⟨marker, isMarker, containsText_self _ t⟩
    rw [copy]
    exact List.mem_cons_self
  | @char c t unescaped _ ih =>
    obtain ⟨own, others⟩ := List.forall_mem_cons.1 bare
    rw [hasEscape_char unescaped, ← ih others, escape_char_of_unescaped unescaped]
    simp [own]

theorem escape_eq_self (none : ¬ m.HasEscape t) : m.escape t = t := by
  induction m.searched t with
  | nil => rfl
  | @escape marker t isMarker _ _ => exact absurd ⟨marker, isMarker, containsText_self _ t⟩ none
  | char unescaped _ ih =>
    rw [escape_char_of_unescaped unescaped, ih (mt HasEscape.behind none)]

theorem exists_escapeAt_iff : (∃ a marker b, m.EscapeAt t a marker b) ↔ m.HasEscape t := by
  constructor
  · rintro ⟨a, marker, b, found⟩
    induction found with
    | @here marker b isMarker => exact ⟨marker, isMarker, containsText_self _ b⟩
    | @escape other t a marker b isMarker _ _ => exact ⟨other, isMarker, containsText_self _ t⟩
    | char _ _ ih => exact ih.behind
  · intro has
    induction m.searched t with
    | nil => exact absurd has hasEscape_nil
    | escape isMarker _ _ => exact ⟨_, _, _, .here isMarker⟩
    | char unescaped _ ih =>
      obtain ⟨a, marker, b, found⟩ := ih ((hasEscape_char unescaped).1 has)
      exact ⟨_, marker, b, .char unescaped found⟩

namespace EscapeAt

variable {a marker b : Text} (found : m.EscapeAt t a marker b)
include found

theorem isMarker : m.IsMarker marker := by
  induction found with
  | here own => exact own
  | escape _ _ ih | char _ _ ih => exact ih

theorem whole : t = a ++ escaped marker ++ b := by
  induction found with
  | here _ => rfl
  | escape _ _ ih | char _ _ ih => simp [ih]

theorem restored_eq : m.restored t = m.restored a ++ marker ++ m.restored b := by
  induction found with
  | here isMarker => exact restored_escaped isMarker _
  | escape isMarker _ ih =>
    rw [restored_escaped isMarker, restored_escaped isMarker, ih]
    simp
  | @char c t a marker b unescaped rest ih =>
    have front : m.Unescaped (c :: a) := by
      rw [rest.whole, List.append_assoc, ← List.cons_append] at unescaped
      exact unescaped.left
    rw [restored_char unescaped, restored_char front, ih]
    rfl

end EscapeAt

-- Where the copies of two texts make up the copy of both, no escaped marker is in both of them.
theorem eq_append_of_seam {marker b p q : Text} (isMarker : m.IsMarker marker)
    (shape : escaped marker ++ b = p ++ q) (seam : m.escape (p ++ q) = m.escape p ++ m.escape q)
    (nonempty : p ≠ []) : ∃ y, p = escaped marker ++ y ∧ b = y ++ q := by
  rcases List.append_eq_append_iff.1 shape with ⟨y, inside, behind⟩ | ⟨x, inside, behind⟩
  · exact ⟨y, inside, behind⟩
  · -- A beginning of the marker keeps its backtick, which the copy of the whole has not.
    obtain ⟨d, p, rfl⟩ := List.exists_cons_of_ne_nil nonempty
    rw [escaped, List.cons_append, List.cons_append] at inside
    obtain ⟨rfl, rest⟩ := List.cons.inj inside
    rcases List.eq_nil_or_concat' x with rfl | ⟨x, last, rfl⟩
    · exact ⟨[], by rw [escaped, List.cons_append, rest, List.append_nil, List.append_nil],
        behind.symm⟩
    · rw [← List.append_assoc] at rest
      obtain ⟨rfl, -⟩ := List.append_inj' rest rfl
      have unescaped : m.Unescaped (backtick :: p) := by
        intro other _
        rw [← Bool.not_eq_true]
        intro begins
        obtain ⟨r, found⟩ := Option.isSome_iff_exists.1 begins
        have tick : backtick ∈ p := by
          have tail := (List.cons.inj (stripFront?_eq_some_iff.1 found)).2
          rw [tail]
          simp
        exact isMarker.no_backtick (List.mem_append_left _ tick)
      obtain ⟨c, run, copy, standIn⟩ := m.escape_escaped isMarker
      rw [← shape, copy, escape_char_of_unescaped unescaped] at seam
      have reserved := standIn c List.mem_cons_self
      rw [(List.cons.inj seam).1] at reserved
      cases reserved

theorem EscapeAt.split {p q a marker b : Text} (found : m.EscapeAt (p ++ q) a marker b)
    (seam : m.escape (p ++ q) = m.escape p ++ m.escape q) :
    (∃ y, m.EscapeAt p a marker y ∧ b = y ++ q) ∨
      ∃ x, m.EscapeAt q x marker b ∧ a = p ++ x := by
  generalize whole : p ++ q = t at found
  induction found generalizing p with
  | @here marker b isMarker =>
    cases p with
    | nil =>
      obtain rfl : q = escaped marker ++ b := whole
      exact .inr ⟨[], .here isMarker, rfl⟩
    | cons d p =>
      obtain ⟨y, shape, rfl⟩ := eq_append_of_seam isMarker whole.symm seam (List.cons_ne_nil d p)
      rw [shape]
      exact .inl ⟨y, .here isMarker, rfl⟩
  | @escape other t a marker b isMarker rest ih =>
    cases p with
    | nil =>
      obtain rfl : q = escaped other ++ t := whole
      exact .inr ⟨_, .escape isMarker rest, rfl⟩
    | cons d p =>
      obtain ⟨y, shape, rfl⟩ := eq_append_of_seam isMarker whole.symm seam (List.cons_ne_nil d p)
      obtain ⟨c, run, copy, -⟩ := m.escape_escaped isMarker
      rw [shape] at seam ⊢
      rw [List.append_assoc, copy, copy, List.append_assoc] at seam
      rcases ih (List.append_cancel_left seam) rfl with ⟨z, inside, rfl⟩ | ⟨x, inside, rfl⟩
      · exact .inl ⟨z, .escape isMarker inside, rfl⟩
      · exact .inr ⟨x, inside, (List.append_assoc _ _ _).symm⟩
  | @char c t a marker b unescaped rest ih =>
    cases p with
    | nil =>
      obtain rfl : q = c :: t := whole
      exact .inr ⟨_, .char unescaped rest, rfl⟩
    | cons d p =>
      obtain ⟨rfl, same⟩ : d = c ∧ p ++ q = t := List.cons.inj whole
      subst same
      have front : m.Unescaped (d :: p) := unescaped.left (b := q)
      rw [List.cons_append, escape_char_of_unescaped unescaped, escape_char_of_unescaped front]
        at seam
      rcases ih (List.cons.inj seam).2 rfl with ⟨z, inside, rfl⟩ | ⟨x, inside, rfl⟩
      · exact .inl ⟨z, .char front inside, rfl⟩
      · exact .inr ⟨x, inside, rfl⟩

end Search

end Markers

end Docspec
