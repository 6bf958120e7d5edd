import Docspec.Proofs.Spans
import Mathlib.Data.List.Basic

set_option autoImplicit false

namespace Docspec

open Text

namespace Text

/-- A text and what replacing makes of it, one match or one character after the other. -/
inductive Substituted (rules : List (Text × Text)) : Text → Text → Prop
  | nil : Substituted rules [] []
  | rule {pat image t out : Text} : firstRule? rules (pat ++ t) = some (pat, image) →
    Substituted rules t out → Substituted rules (pat ++ t) (image ++ out)
  | char {c : Char} {t out : Text} : firstRule? rules (c :: t) = none →
    Substituted rules t out → Substituted rules (c :: t) (c :: out)

section Rules

variable {rules : List (Text × Text)}

theorem mem_of_firstRule? {t : Text} {rule : Text × Text} (found : firstRule? rules t = some rule) :
    rule ∈ rules ∧ startsWith rule.1 t = true := by
  rw [firstRule?] at found
  exact ⟨List.mem_of_find?_eq_some found, by simpa using List.find?_some found⟩

theorem startsWith_append_right {pat a : Text} (begins : startsWith pat a = true) (b : Text) :
    startsWith pat (a ++ b) = true := by
  obtain ⟨rest, found⟩ := Option.isSome_iff_exists.1 begins
  rw [stripFront?_eq_some_iff.1 found, List.append_assoc]
  exact startsWith_append pat _

theorem firstRule?_of_append {a b : Text} {rule : Text × Text}
    (found : firstRule? rules (a ++ b) = some rule) (fits : startsWith rule.1 a = true) :
    firstRule? rules a = some rule := by
  obtain ⟨-, before, after, rfl, unmatched⟩ := List.find?_eq_some_iff_append.1 found
  refine List.find?_eq_some_iff_append.2 ⟨fits, before, after, rfl, fun earlier member => ?_⟩
  have absent := unmatched earlier member
  rw [Bool.not_eq_true'] at absent ⊢
  rw [← Bool.not_eq_true] at absent ⊢
  exact fun begins => absent (startsWith_append_right begins b)

theorem firstRule?_none_of_append {a b : Text} (unmatched : firstRule? rules (a ++ b) = none) :
    firstRule? rules a = none := by
  rw [firstRule?, List.find?_eq_none] at unmatched ⊢
  exact fun rule member begins => unmatched rule member (startsWith_append_right begins b)

-- Images are made of marked characters only, so next to an unmarked one no match is cut.
theorem Substituted.split {marked : Char → Bool}
    (images : ∀ rule ∈ rules, ∀ c ∈ rule.2, marked c = true) {t a b : Text}
    (done : Substituted rules t (a ++ b))
    (boundary : (∀ c ∈ a.getLast?, marked c = false) ∨ ∀ c ∈ b.head?, marked c = false) :
    ∃ t₁ t₂, t = t₁ ++ t₂ ∧ Substituted rules t₁ a ∧ Substituted rules t₂ b := by
  generalize whole : a ++ b = out at done
  induction done generalizing a with
  | nil =>
    obtain ⟨rfl, rfl⟩ := List.append_eq_nil_iff.1 whole
    exact ⟨[], [], rfl, .nil, .nil⟩
  | @char c t out unmatched rest ih =>
    cases a with
    | nil =>
      obtain rfl : b = c :: out := whole
      exact ⟨[], c :: t, rfl, .nil, .char unmatched rest⟩
    | cons d a =>
      obtain ⟨rfl, behind⟩ := List.cons.inj whole
      have inner : (∀ c ∈ a.getLast?, marked c = false) ∨ ∀ c ∈ b.head?, marked c = false := by
        refine boundary.imp_left fun last => ?_
        cases a with
        | nil => simp
        | cons => simpa using last
      obtain ⟨t₁, t₂, rfl, left, right⟩ := ih inner behind
      have alone := firstRule?_none_of_append (a := d :: t₁) unmatched
      exact ⟨d :: t₁, t₂, rfl, .char alone left, right⟩
  | @rule pat image t out found rest ih =>
    have marks := images _ (mem_of_firstRule? found).1
    rcases List.append_eq_append_iff.1 whole with ⟨cut, inside, behind⟩ | ⟨a', rfl, behind⟩
    · rcases List.eq_nil_or_concat a with rfl | ⟨start, last, rfl⟩
      · obtain rfl : b = image ++ out := whole
        exact ⟨[], pat ++ t, rfl, .nil, .rule found rest⟩
      cases cut with
      | nil =>
        obtain rfl : b = out := behind
        rw [List.append_nil] at inside
        rw [← inside]
        refine ⟨pat, t, rfl, ?_, rest⟩
        have begins : startsWith pat pat = true := by simpa using startsWith_append pat []
        have alone := firstRule?_of_append found begins
        have whole := Substituted.rule (t := []) (by rwa [List.append_nil]) .nil
        simpa only [List.append_nil] using whole
      | cons first cut =>
        -- The place is inside the image, and both characters next to it are marked.
        have left := marks last (by simp [inside])
        have right := marks first (by simp [inside])
        simp [behind, left, right] at boundary
    · have inner : (∀ c ∈ a'.getLast?, marked c = false) ∨ ∀ c ∈ b.head?, marked c = false := by
        refine boundary.imp_left fun last => ?_
        cases a' with
        | nil => simp
        | cons => simpa using last
      obtain ⟨t₁, t₂, rfl, left, right⟩ := ih inner behind.symm
      rw [← List.append_assoc] at found
      exact ⟨pat ++ t₁, t₂, (List.append_assoc _ _ _).symm,
        .rule (firstRule?_of_append found (startsWith_append pat t₁)) left, right⟩

variable (nonempty : ∀ rule ∈ rules, rule.1 ≠ [])
include nonempty

theorem substituted (t : Text) : Substituted rules t (substitute rules t) := by
  induction size : t.length using Nat.strongRecOn generalizing t with
  | ind n ih =>
    cases t with
    | nil => exact .nil
    | cons c t =>
      cases found : firstRule? rules (c :: t) with
      | none =>
        rw [substitute_char found]
        exact .char found (ih t.length (by rw [← size, List.length_cons]; omega) t rfl)
      | some rule =>
        obtain ⟨pat, image⟩ := rule
        obtain ⟨member, begins⟩ := mem_of_firstRule? found
        obtain ⟨rest, shape⟩ : ∃ rest, stripFront? pat (c :: t) = some rest :=
          Option.isSome_iff_exists.1 begins
        have visible : pat ≠ [] := nonempty _ member
        have positive := List.length_pos_iff.2 visible
        rw [stripFront?_eq_some_iff.1 shape] at found size ⊢
        rw [List.length_append] at size
        rw [substitute_rule visible found]
        have shorter : rest.length < n := by omega
        exact .rule found (ih rest.length shorter rest rfl)

theorem Substituted.eq {t out : Text} (done : Substituted rules t out) :
    substitute rules t = out := by
  induction done with
  | nil => rfl
  | rule found _ ih =>
    rw [substitute_rule (nonempty _ (mem_of_firstRule? found).1) found, ih]
  | char found _ ih => rw [substitute_char found, ih]

end Rules

theorem replaceAll_substituted {pat : Text} (visible : pat ≠ []) (image t : Text) :
    Substituted [(pat, image)] t (replaceAll pat image t) := by
  have same : replaceAll pat image t = substitute [(pat, image)] t := by
    cases pat with
    | nil => exact absurd rfl visible
    | cons => rfl
  rw [same]
  exact substituted (by simpa) t

end Text

namespace Markers

section Copy

variable {m : Markers}

def escapeRules (m : Markers) : List (Text × Text) :=
  [(escaped m.opening, m.openingRun), (escaped m.closing, m.closingRun)]

theorem forall_escapeRules {p : Text × Text → Prop} (opening : p (escaped m.opening, m.openingRun))
    (closing : p (escaped m.closing, m.closingRun)) : ∀ rule ∈ m.escapeRules, p rule := by
  simpa [escapeRules] using ⟨opening, closing⟩

theorem escape_substituted (m : Markers) (t : Text) : Substituted m.escapeRules t (m.escape t) :=
  substituted (forall_escapeRules (by simp [escaped]) (by simp [escaped])) t

theorem escape_eq {t copy : Text} (done : Substituted m.escapeRules t copy) : m.escape t = copy :=
  done.eq (forall_escapeRules (by simp [escaped]) (by simp [escaped]))

theorem escape_images :
    ∀ rule ∈ m.escapeRules, ∀ c ∈ rule.2, isStandIn c = true :=
  forall_escapeRules (fun c member => by rw [List.eq_of_mem_replicate member]; rfl)
    fun c member => by rw [List.eq_of_mem_replicate member]; rfl

theorem byteLength_escape (m : Markers) (t : Text) : byteLength (m.escape t) = byteLength t := by
  have done := m.escape_substituted t
  generalize m.escape t = copy at done ⊢
  induction done with
  | nil => rfl
  | rule found _ ih =>
    have sizes : ∀ rule ∈ m.escapeRules, byteLength rule.2 = byteLength rule.1 :=
      forall_escapeRules (byteLength_replicate _ rfl) (byteLength_replicate _ rfl)
    have size := sizes _ (mem_of_firstRule? found).1
    rw [byteLength_append, byteLength_append, size, ih]
  | char _ _ ih => rw [byteLength_cons, byteLength_cons, ih]

theorem escape_split {t a b : Text} (shape : m.escape t = a ++ b)
    (boundary : (∀ c ∈ a.getLast?, isStandIn c = false) ∨ ∀ c ∈ b.head?, isStandIn c = false) :
    ∃ t₁ t₂, t = t₁ ++ t₂ ∧ m.escape t₁ = a ∧ m.escape t₂ = b := by
  have done := m.escape_substituted t
  rw [shape] at done
  obtain ⟨t₁, t₂, whole, left, right⟩ := done.split escape_images boundary
  exact ⟨t₁, t₂, whole, escape_eq left, escape_eq right⟩

theorem eq_of_escape {t copy : Text} (shape : m.escape t = copy)
    (bare : ∀ c ∈ copy, isStandIn c = false) : t = copy := by
  have done := m.escape_substituted t
  rw [shape] at done
  clear shape
  induction done with
  | nil => rfl
  | @rule pat image t copy found _ _ =>
    have visible : ∀ rule ∈ m.escapeRules, rule.2 ≠ [] := by
      obtain ⟨opening, shapeOpening⟩ := m.openingRun_cons
      obtain ⟨closing, shapeClosing⟩ := m.closingRun_cons
      exact forall_escapeRules (by simp [shapeOpening]) (by simp [shapeClosing])
    obtain ⟨member, -⟩ := mem_of_firstRule? found
    obtain ⟨c, image', rfl⟩ := List.exists_cons_of_ne_nil (visible _ member)
    simp [escape_images _ member c] at bare
  | char _ _ ih => exact congrArg _ (ih fun c member => bare c (List.mem_cons_of_mem _ member))

theorem escape_marker {marker : Text} (nonempty : marker ≠ [])
    (bare : ∀ c ∈ marker, isStandIn c = false) {t a b : Text}
    (shape : m.escape t = a ++ marker ++ b) :
    ∃ t₁ t₂, t = t₁ ++ marker ++ t₂ ∧ m.escape t₁ = a ∧ m.escape t₂ = b := by
  rw [List.append_assoc] at shape
  have first : ∀ c ∈ (marker ++ b).head?, isStandIn c = false := by
    rw [List.head?_append_of_ne_nil _ nonempty]
    exact fun c member => bare c (List.mem_of_mem_head? member)
  obtain ⟨t₁, rest, rfl, before, behind⟩ := escape_split shape (.inr first)
  have last : ∀ c ∈ marker.getLast?, isStandIn c = false :=
    fun c member => bare c (List.mem_of_mem_getLast? member)
  obtain ⟨written, t₂, rfl, own, after⟩ := escape_split behind (.inl last)
  rw [eq_of_escape own bare]
  exact ⟨t₁, t₂, (List.append_assoc _ _ _).symm, before, after⟩

theorem escape_span (free : m.HasNoStandIn) {t a body b : Text}
    (shape : m.escape t = a ++ m.opening ++ body ++ m.closing ++ b) :
    ∃ front inside back, t = front ++ m.opening ++ inside ++ m.closing ++ back ∧
      m.escape front = a ∧ m.escape inside = body ∧ m.escape back = b := by
  obtain ⟨opens, closes⟩ := List.forall_mem_append.1 free
  rw [List.append_assoc, List.append_assoc (a ++ m.opening)] at shape
  obtain ⟨front, rest, rfl, before, behind⟩ := escape_marker m.opening_ne_nil opens shape
  rw [← List.append_assoc] at behind
  obtain ⟨inside, back, rfl, within, after⟩ := escape_marker m.closing_ne_nil closes behind
  exact ⟨front, inside, back, by simp, before, within, after⟩

end Copy

end Markers

end Docspec
