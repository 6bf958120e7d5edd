import Docspec.Proofs.Filling

set_option autoImplicit false

namespace Docspec

open Text

namespace Markers

/-- A text as a search from the left for markers takes it apart, trying the opening one first. -/
inductive Scanned (m : Markers) : Text → Prop
  | nil : Scanned m []
  | opening {t : Text} : Scanned m t → Scanned m (m.opening ++ t)
  | closing {t : Text} : startsWith m.opening (m.closing ++ t) = false → Scanned m t →
    Scanned m (m.closing ++ t)
  | char {c : Char} {t : Text} : startsWith m.opening (c :: t) = false →
    startsWith m.closing (c :: t) = false → Scanned m t → Scanned m (c :: t)

def IsMarker (m : Markers) (t : Text) : Prop := t = m.opening ∨ t = m.closing

def replaced (m : Markers) (opening closing t : Text) : Text :=
  substitute [(m.opening, opening), (m.closing, closing)] t

def quoted (m : Markers) (t : Text) : Text :=
  m.replaced (escaped m.opening) (escaped m.closing) t

def covered (m : Markers) (t : Text) : Text := m.replaced m.openingRun m.closingRun t

section Scan

variable {m : Markers} {t : Text}

theorem IsMarker.ne_nil {marker : Text} (isMarker : m.IsMarker marker) : marker ≠ [] := by
  rcases isMarker with rfl | rfl
  · exact m.opening_ne_nil
  · exact m.closing_ne_nil

theorem IsMarker.no_backtick {marker : Text} (isMarker : m.IsMarker marker) :
    backtick ∉ marker := by
  rcases isMarker with rfl | rfl
  · exact m.no_backtick.1
  · exact m.no_backtick.2

theorem scanned (m : Markers) (t : Text) : m.Scanned t := by
  induction size : t.length using Nat.strongRecOn generalizing t with
  | ind n ih =>
    have shorter {marker rest : Text} (nonempty : marker ≠ []) (shape : t = marker ++ rest) :
        m.Scanned rest := by
      have positive := List.length_pos_iff.2 nonempty
      exact ih rest.length (by rw [← size, shape, List.length_append]; omega) rest rfl
    cases t with
    | nil => exact .nil
    | cons c t =>
      cases opens : stripFront? m.opening (c :: t) with
      | some rest =>
        have shape := stripFront?_eq_some_iff.1 opens
        rw [shape]
        exact .opening (shorter m.opening_ne_nil shape)
      | none =>
        have unopened := stripFront?_eq_none_iff.1 opens
        cases closes : stripFront? m.closing (c :: t) with
        | some rest =>
          have shape := stripFront?_eq_some_iff.1 closes
          rw [shape] at unopened ⊢
          exact .closing unopened (shorter m.closing_ne_nil shape)
        | none =>
          exact .char unopened (stripFront?_eq_none_iff.1 closes)
            (shorter (List.cons_ne_nil c []) rfl)

section Replaced

variable (a b : Text)

@[simp] theorem replaced_nil : m.replaced a b [] = [] := rfl

theorem replaced_opening (t : Text) : m.replaced a b (m.opening ++ t) = a ++ m.replaced a b t :=
  substitute_rule m.opening_ne_nil (by simp [firstRule?])

theorem replaced_closing (unopened : startsWith m.opening (m.closing ++ t) = false) :
    m.replaced a b (m.closing ++ t) = b ++ m.replaced a b t :=
  substitute_rule m.closing_ne_nil (by simp [firstRule?, unopened])

theorem replaced_char {c : Char} (unopened : startsWith m.opening (c :: t) = false)
    (unclosed : startsWith m.closing (c :: t) = false) :
    m.replaced a b (c :: t) = c :: m.replaced a b t :=
  substitute_char (by simp [firstRule?, unopened, unclosed])

end Replaced

def BeginsApart (pat image : Text) : Prop := ∃ c rest, image = c :: rest ∧ c ∉ pat

theorem startsWith_apart {pat image : Text} (apart : BeginsApart pat image) (nonempty : pat ≠ [])
    (t : Text) : startsWith pat (image ++ t) = false := by
  obtain ⟨c, rest, rfl, absent⟩ := apart
  rw [List.cons_append, ← stripFront?_eq_none_iff, stripFront?_eq_none nonempty absent]

-- What a replaced text begins with the text itself begins with: up to the first image the two
-- agree, and no image lets the pattern go on.
theorem startsWith_of_replaced {a b pat : Text} (opening : BeginsApart pat a)
    (closing : BeginsApart pat b) (begins : startsWith pat (m.replaced a b t) = true) :
    startsWith pat t = true := by
  induction m.scanned t generalizing pat with
  | nil => exact begins
  | opening _ =>
    by_cases empty : pat = []
    next => simp [empty]
    next => simp [replaced_opening, startsWith_apart opening empty] at begins
  | closing unopened _ =>
    by_cases empty : pat = []
    next => simp [empty]
    next => simp [replaced_closing a b unopened, startsWith_apart closing empty] at begins
  | char unopened unclosed _ ih =>
    cases pat with
    | nil => rfl
    | cons p pat =>
      have later {image : Text} (apart : BeginsApart (p :: pat) image) : BeginsApart pat image := by
        obtain ⟨d, rest, shape, absent⟩ := apart
        exact ⟨d, rest, shape, fun inside => absent (List.mem_cons_of_mem p inside)⟩
      rw [replaced_char a b unopened unclosed, startsWith_cons, Bool.and_eq_true] at begins
      rw [startsWith_cons, begins.1, ih (later opening) (later closing) begins.2]
      rfl

theorem startsWith_replaced {a b marker : Text} (isMarker : m.IsMarker marker)
    (opening : BeginsApart marker a) (closing : BeginsApart marker b) (t : Text) :
    startsWith marker (m.replaced a b t) = false := by
  cases m.scanned t with
  | nil =>
    rw [replaced_nil, ← stripFront?_eq_none_iff, Option.eq_none_iff_forall_ne_some]
    intro rest found
    exact isMarker.ne_nil (List.append_eq_nil_iff.1 (stripFront?_eq_some_iff.1 found).symm).1
  | opening _ => rw [replaced_opening, startsWith_apart opening isMarker.ne_nil]
  | closing unopened _ =>
    rw [replaced_closing a b unopened, startsWith_apart closing isMarker.ne_nil]
  | char unopened unclosed _ =>
    rw [← Bool.not_eq_true]
    intro begins
    have original := startsWith_of_replaced opening closing begins
    rcases isMarker with rfl | rfl
    · exact absurd original (by simp [unopened])
    · exact absurd original (by simp [unclosed])

theorem startsWith_quoted {marker : Text} (isMarker : m.IsMarker marker) (t : Text) :
    startsWith marker (m.quoted t) = false :=
  startsWith_replaced isMarker ⟨backtick, _, rfl, isMarker.no_backtick⟩
    ⟨backtick, _, rfl, isMarker.no_backtick⟩ t

theorem mem_quoted {c : Char} (member : c ∈ m.quoted t) : c = backtick ∨ c ∈ t := by
  induction m.scanned t with
  | nil => exact absurd member List.not_mem_nil
  | opening _ ih =>
    rw [quoted, replaced_opening, List.mem_append, escaped, List.mem_append, List.mem_cons,
      List.mem_singleton] at member
    rw [List.mem_append]
    tauto
  | closing unopened _ ih =>
    rw [quoted, replaced_closing _ _ unopened, List.mem_append, escaped, List.mem_append,
      List.mem_cons, List.mem_singleton] at member
    rw [List.mem_append]
    tauto
  | char unopened unclosed _ ih =>
    rw [quoted, replaced_char _ _ unopened unclosed, List.mem_cons] at member
    rw [List.mem_cons]
    tauto

theorem escape_char (m : Markers) (c : Char) (t : Text) :
    m.escape (c :: m.quoted t) = c :: m.escape (m.quoted t) := by
  by_cases tick : c = backtick
  next =>
    have unescaped {marker : Text} (isMarker : m.IsMarker marker) :
        startsWith (escaped marker) (c :: m.quoted t) = false := by
      rw [← Bool.not_eq_true]
      intro begins
      rw [escaped, List.cons_append, startsWith_cons, Bool.and_eq_true] at begins
      exact absurd (startsWith_of_append begins.2) (by simp [startsWith_quoted isMarker])
    exact substitute_char (by simp [firstRule?, unescaped (.inl rfl), unescaped (.inr rfl)])
  next => exact m.escape_append (a := [c]) (by simpa using Ne.symm tick) _

theorem escape_quoted (m : Markers) (t : Text) : m.escape (m.quoted t) = m.covered t := by
  induction m.scanned t with
  | nil => rfl
  | opening _ ih =>
    rw [quoted, covered, replaced_opening, replaced_opening, escape_opening]
    exact congrArg _ ih
  | closing unopened _ ih =>
    rw [quoted, covered, replaced_closing _ _ unopened, replaced_closing _ _ unopened,
      escape_closing]
    exact congrArg _ ih
  | char unopened unclosed _ ih =>
    rw [quoted, covered, replaced_char _ _ unopened unclosed, replaced_char _ _ unopened unclosed]
    exact (m.escape_char _ _).trans (congrArg _ ih)

theorem unescape_covered (free : ∀ c ∈ t, isStandIn c = false) : m.unescape (m.covered t) = t := by
  induction m.scanned t with
  | nil => rfl
  | opening _ ih =>
    have rest := ih fun c member => free c (List.mem_append_right _ member)
    rw [covered, replaced_opening, unescape_opening]
    exact congrArg _ rest
  | closing unopened _ ih =>
    have rest := ih fun c member => free c (List.mem_append_right _ member)
    rw [covered, replaced_closing _ _ unopened, unescape_closing]
    exact congrArg _ rest
  | @char c t unopened unclosed _ ih =>
    have rest := ih fun c member => free c (List.mem_cons_of_mem _ member)
    have own := m.unescape_append (a := [c]) (by simpa using free c (by simp)) (m.covered t)
    rw [covered, replaced_char _ _ unopened unclosed]
    exact own.trans (congrArg _ rest)

theorem cut?_covered {marker : Text} (isMarker : m.IsMarker marker)
    (free : ∀ c ∈ marker, isStandIn c = false) (t : Text) : cut? marker (m.covered t) = none := by
  have foreign {c : Char} (standIn : isStandIn c = true) : c ∉ marker := fun inside => by
    simp [free c inside] at standIn
  have apart (n : Nat) {c : Char} (standIn : isStandIn c = true) :
      Apart marker (List.replicate n c) := fun d member => by
    rw [List.eq_of_mem_replicate member]
    exact foreign standIn
  have opening : BeginsApart marker m.openingRun := by
    obtain ⟨run, shape⟩ := m.openingRun_cons
    exact ⟨_, run, shape, foreign rfl⟩
  have closing : BeginsApart marker m.closingRun := by
    obtain ⟨run, shape⟩ := m.closingRun_cons
    exact ⟨_, run, shape, foreign rfl⟩
  induction m.scanned t with
  | nil => exact cut?_eq_none_of_apart isMarker.ne_nil (by simp [Apart, covered])
  | opening _ ih =>
    rw [covered, replaced_opening, openingRun, cut?_append isMarker.ne_nil (apart _ rfl)]
    exact Option.map_eq_none_iff.2 ih
  | closing unopened _ ih =>
    rw [covered, replaced_closing _ _ unopened, closingRun,
      cut?_append isMarker.ne_nil (apart _ rfl)]
    exact Option.map_eq_none_iff.2 ih
  | @char c t unopened unclosed _ ih =>
    have unmatched := startsWith_replaced isMarker opening closing (c :: t)
    rw [replaced_char _ _ unopened unclosed] at unmatched
    rw [covered, replaced_char _ _ unopened unclosed, cut?, stripFront?_eq_none_iff.2 unmatched]
    exact Option.map_eq_none_iff.2 ih

theorem covered_of_foreign {c d : Char} (opening : c ∈ m.opening) (closing : d ∈ m.closing)
    (absent : c ∉ t ∧ d ∉ t) : m.covered t = t := by
  induction m.scanned t with
  | nil => rfl
  | opening _ => exact absurd (List.mem_append_left _ opening) absent.1
  | closing _ _ => exact absurd (List.mem_append_left _ closing) absent.2
  | char unopened unclosed _ ih =>
    rw [covered, replaced_char _ _ unopened unclosed]
    exact congrArg _ (ih (by simp_all))

theorem nextSpan?_covered (free : ∀ c ∈ t, isStandIn c = false) :
    m.nextSpan? (m.covered t) = none := by
  have missing : cut? m.opening (m.covered t) = none ∨ cut? m.closing (m.covered t) = none := by
    by_cases opening : ∀ c ∈ m.opening, isStandIn c = false
    next => exact .inl (cut?_covered (.inl rfl) opening t)
    by_cases closing : ∀ c ∈ m.closing, isStandIn c = false
    next => exact .inr (cut?_covered (.inr rfl) closing t)
    have absent {c : Char} (standIn : ¬ isStandIn c = false) : c ∉ t := fun inside =>
      standIn (free c inside)
    obtain ⟨c, inOpening, standIn⟩ := not_forall₂.1 opening
    obtain ⟨d, inClosing, standIn'⟩ := not_forall₂.1 closing
    rw [covered_of_foreign inOpening inClosing ⟨absent standIn, absent standIn'⟩]
    exact .inl (cut?_eq_none_of_foreign inOpening (absent standIn))
  rw [nextSpan?]
  cases found : cut? m.opening (m.covered t) with
  | none => rfl
  | some parts =>
    have unclosed := missing.resolve_left (by simp [found])
    rw [cut?_eq_append (show _ = some (parts.1, parts.2) from found)] at unclosed
    simp only [cut?_suffix unclosed]

end Scan

end Markers

namespace Engine

theorem interpolate_quoted (e : Engine) (vars : Vars) {t : Text}
    (free : ∀ c ∈ t, Markers.isStandIn c = false) :
    e.interpolate (e.markers.quoted t) vars = .ok t := by
  have unreserved : ∀ c ∈ e.markers.quoted t, Markers.isStandIn c = false := by
    intro c member
    rcases Markers.mem_quoted member with rfl | inside
    · rfl
    · exact free c inside
  rw [interpolate_of_no_standIn e vars unreserved, Markers.escape_quoted,
    fill_none e _ vars [] 0 (Markers.nextSpan?_covered free), List.nil_append,
    Markers.unescape_covered free]

theorem interpolate_quoted_nested :
    let e : Engine := ⟨⟨"<<", "<", by decide, by decide, by decide, by decide⟩, .empty⟩
    let t : Text := "\x60<\x60<<< a >\x60"
    (∀ c ∈ t, Markers.isStandIn c = false) ∧
      e.markers.quoted t = "\x60\x60<\x60\x60\x60<<\x60\x60<\x60 a >\x60".toList ∧
      e.interpolate (e.markers.quoted t) [("a", .int 1)] = .ok t := by
  intro e t
  have none : t.any Markers.isStandIn = false := by decide
  have free : ∀ c ∈ t, Markers.isStandIn c = false := fun c member =>
    Bool.eq_false_iff.2 (List.any_eq_false.1 none c member)
  exact ⟨free, by decide, interpolate_quoted e [("a", .int 1)] free⟩

end Engine

end Docspec
