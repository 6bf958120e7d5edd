import Docspec.Proofs.Filling
import Mathlib.Data.List.Find

set_option autoImplicit false

namespace Docspec

open Text

namespace Text

theorem substituteFrom_append_break {rules : List (Text × Text)} {c : Char}
    (nonempty : ∀ rule ∈ rules, rule.1 ≠ []) (absent : ∀ rule ∈ rules, c ∉ rule.1) {a : Text}
    {skip : Nat} (inside : skip ≤ a.length) (t : Text) :
    substituteFrom rules skip (a ++ c :: t) =
      substituteFrom rules skip a ++ c :: substituteFrom rules 0 t := by
  induction a generalizing skip with
  | nil =>
    obtain rfl : skip = 0 := Nat.le_zero.1 inside
    have unmatched : firstRule? rules (c :: t) = none := by
      refine List.find?_eq_none.2 fun rule member => ?_
      rw [startsWith, stripFront?_eq_none (nonempty rule member) (absent rule member)]
      simp
    simp only [List.nil_append, substituteFrom, unmatched]
  | cons x a ih =>
    cases skip with
    | succ skip => exact ih (Nat.le_of_succ_le_succ inside)
    | zero =>
      have same : firstRule? rules (x :: a ++ c :: t) = firstRule? rules (x :: a) := by
        refine List.find?_congr fun rule member => ?_
        rw [startsWith, startsWith, stripFront?_append_break (absent rule member),
          Option.isSome_map]
      rw [List.cons_append] at same
      rw [List.cons_append, substituteFrom, same, substituteFrom]
      cases found : firstRule? rules (x :: a) with
      | none => exact congrArg (x :: ·) (ih (Nat.zero_le _))
      | some rule =>
        have begins : startsWith rule.1 (x :: a) = true := by
          rw [firstRule?] at found
          simpa using List.find?_some found
        obtain ⟨rest, shape⟩ := Option.isSome_iff_exists.1 begins
        have size := congrArg List.length (stripFront?_eq_some_iff.1 shape)
        rw [List.length_cons, List.length_append] at size
        have within : rule.1.length - 1 ≤ a.length := by omega
        simp only [ih within, List.append_assoc]

end Text

theorem mapM_eq_error_iff {α β ε : Type} {f : α → Except ε β} {as : List α} {err : ε} :
    as.mapM f = .error err ↔ ∃ done a later, as = done ++ a :: later ∧
      (∀ d ∈ done, ∃ b, f d = .ok b) ∧ f a = .error err := by
  induction as with
  | nil => simp [pure, Except.pure]
  | cons a as ih =>
    rw [List.mapM_cons]
    cases head : f a with
    | error err' =>
      constructor
      · intro failed
        cases failed
        exact ⟨[], a, as, rfl, by simp, head⟩
      · rintro ⟨done, b, later, shape, succeed, fails⟩
        cases done with
        | nil =>
          obtain ⟨rfl, rfl⟩ := List.cons.inj shape
          rw [head] at fails
          cases fails
          rfl
        | cons d done =>
          obtain ⟨rfl, rfl⟩ := List.cons.inj shape
          obtain ⟨value, ok⟩ := succeed a List.mem_cons_self
          exact absurd (head.symm.trans ok) (by simp)
    | ok value =>
      have tail : (do let b ← Except.ok value; let bs ← as.mapM f; pure (b :: bs)) =
          (.error err : Except ε (List β)) ↔ as.mapM f = .error err := by
        cases as.mapM f <;> simp [bind, Except.bind, pure, Except.pure]
      rw [tail, ih]
      constructor
      · rintro ⟨done, b, later, rfl, succeed, fails⟩
        exact ⟨a :: done, b, later, rfl, List.forall_mem_cons.2 ⟨⟨value, head⟩, succeed⟩, fails⟩
      · rintro ⟨done, b, later, shape, succeed, fails⟩
        cases done with
        | nil =>
          obtain ⟨rfl, rfl⟩ := List.cons.inj shape
          exact absurd (head.symm.trans fails) (by simp)
        | cons d done =>
          obtain ⟨rfl, rfl⟩ := List.cons.inj shape
          exact ⟨done, b, later, rfl, fun d member => succeed d (List.mem_cons_of_mem _ member),
            fails⟩

namespace Markers

structure Visit extends Span where
  done : Text

def visitsFrom (m : Markers) (done rest : Text) : List Visit :=
  match _h : m.nextSpan? rest with
  | none => []
  | some s =>
    { s with done } ::
      m.visitsFrom (done ++ (s.before ++ m.opening ++ s.body ++ m.closing)) s.after
termination_by rest.length
decreasing_by exact length_after_lt _h

def visits (m : Markers) (t : Text) : List Visit := m.visitsFrom [] t

def leftOver : Text → List Visit → Text
  | rest, [] => rest
  | _, v :: vs => leftOver v.after vs

section Visits

variable {m : Markers}

theorem visitsFrom_none {rest : Text} (missing : m.nextSpan? rest = none) (done : Text) :
    m.visitsFrom done rest = [] := by
  rw [visitsFrom]
  split
  next => rfl
  next s found => exact absurd (missing.symm.trans found) (by simp)

theorem visitsFrom_some {rest : Text} {s : Span} (found : m.nextSpan? rest = some s)
    (done : Text) :
    m.visitsFrom done rest =
      { s with done } ::
        m.visitsFrom (done ++ (s.before ++ m.opening ++ s.body ++ m.closing)) s.after := by
  rw [visitsFrom]
  split
  next missing => exact absurd (found.symm.trans missing) (by simp)
  next s' another =>
    obtain rfl : s = s' := Option.some.inj (found.symm.trans another)
    rfl

theorem visitsFrom_whole {done rest : Text} {v : Visit} (member : v ∈ m.visitsFrom done rest) :
    v.done ++ v.before ++ m.opening ++ v.body ++ m.closing ++ v.after = done ++ rest := by
  fun_induction visitsFrom m done rest with
  | case1 => cases member
  | case2 done rest s found ih =>
    have whole := eq_append_of_nextSpan? found
    rcases List.mem_cons.1 member with rfl | later
    · simp [whole]
    · rw [ih later, whole]
      simp

theorem unescape_append_break {c : Char} (bare : isStandIn c = false) (a t : Text) :
    m.unescape (a ++ c :: t) = m.unescape a ++ c :: m.unescape t := by
  have absent (n : Nat) {d : Char} (standIn : isStandIn d = true) : c ∉ List.replicate n d := by
    intro member
    rw [← List.eq_of_mem_replicate member, bare] at standIn
    cases standIn
  refine substituteFrom_append_break ?_ ?_ (Nat.zero_le _) t
  · intro rule member
    simp only [List.mem_cons, List.not_mem_nil, or_false] at member
    rcases member with rfl | rfl
    · obtain ⟨run, shape⟩ := m.openingRun_cons
      simp [shape]
    · obtain ⟨run, shape⟩ := m.closingRun_cons
      simp [shape]
  · intro rule member
    simp only [List.mem_cons, List.not_mem_nil, or_false] at member
    rcases member with rfl | rfl
    · exact absent _ rfl
    · exact absent _ rfl

theorem unescape_append_marker {marker : Text} (nonempty : marker ≠ [])
    (bare : ∀ c ∈ marker, isStandIn c = false) (a t : Text) :
    m.unescape (a ++ marker ++ t) = m.unescape a ++ marker ++ m.unescape t := by
  cases marker with
  | nil => exact absurd rfl nonempty
  | cons c marker =>
    obtain ⟨first, others⟩ := List.forall_mem_cons.1 bare
    rw [List.append_assoc, List.cons_append, unescape_append_break first, m.unescape_append others]
    simp

theorem unescape_append_closing (free : m.HasNoStandIn) (a t : Text) :
    m.unescape (a ++ m.closing ++ t) = m.unescape a ++ m.closing ++ m.unescape t :=
  unescape_append_marker m.closing_ne_nil (fun c member => free c (by simp [member])) a t

theorem unescape_closing_end (free : m.HasNoStandIn) (a : Text) :
    m.unescape (a ++ m.closing) = m.unescape a ++ m.closing := by
  have closed := unescape_append_closing free a []
  rw [List.append_nil] at closed
  exact closed.trans (List.append_nil _)

theorem unescape_span (free : m.HasNoStandIn) (before body : Text) :
    m.unescape (before ++ m.opening ++ body ++ m.closing) =
      m.unescape before ++ m.opening ++ m.unescape body ++ m.closing := by
  have opened := unescape_append_marker (m := m) m.opening_ne_nil
    (fun c member => free c (by simp [member])) before body
  rw [unescape_closing_end free, opened]

end Visits

end Markers

namespace Engine

open Placeholder Markers

section Outcome

variable (e : Engine) (template : Text) (vars : Vars)

/-- What stands in the place of a span: the span itself, if its body is not one of a placeholder. -/
def outcome (v : Visit) : Except Error Text :=
  match Body.parse? v.body with
  | none => .ok (e.markers.opening ++ e.markers.unescape v.body ++ e.markers.closing)
  | some b => e.expand template vars (byteLength (v.done ++ v.before ++ e.markers.opening)) b

def piece (v : Visit) : Except Error Text :=
  (e.outcome template vars v).map (e.markers.unescape v.before ++ ·)

theorem fill_pending (free : e.markers.HasNoStandIn) (a pending : Text) (offset : Nat)
    (rest : Text) :
    e.fill template vars (a ++ e.markers.closing ++ pending) offset rest =
      (e.fill template vars pending offset rest).map
        (e.markers.unescape a ++ e.markers.closing ++ ·) := by
  induction size : rest.length using Nat.strongRecOn generalizing pending offset rest with
  | ind n ih =>
    cases found : e.markers.nextSpan? rest with
    | none =>
      rw [fill_none e template vars _ _ found, fill_none e template vars _ _ found,
        List.append_assoc _ pending, unescape_append_closing free]
      rfl
    | some s =>
      have shorter := length_after_lt found
      rw [fill_some e template vars _ _ found, fill_some e template vars _ _ found]
      cases parsed : Body.parse? s.body with
      | none =>
        have next := ih s.after.length (by omega)
          (pending ++ s.before ++ e.markers.opening ++ s.body ++ e.markers.closing)
          (offset + byteLength (s.before ++ e.markers.opening) +
            byteLength (s.body ++ e.markers.closing)) s.after rfl
        simpa only [List.append_assoc] using next
      | some b =>
        rw [List.append_assoc _ pending, unescape_append_closing free]
        dsimp only
        cases e.expand template vars (offset + byteLength (s.before ++ e.markers.opening)) b with
        | error err => rfl
        | ok value =>
          simp only [Except.bind]
          cases e.fill template vars [] _ s.after with
          | error err => rfl
          | ok tail => simp [Except.map]

theorem fill_visits (free : e.markers.HasNoStandIn) (done rest : Text) :
    e.fill template vars [] (byteLength done) rest =
      ((e.markers.visitsFrom done rest).mapM (e.piece template vars)).map fun pieces =>
        pieces.flatten ++ e.markers.unescape (leftOver rest (e.markers.visitsFrom done rest)) := by
  induction size : rest.length using Nat.strongRecOn generalizing done rest with
  | ind n ih =>
    cases found : e.markers.nextSpan? rest with
    | none =>
      rw [fill_none e template vars _ _ found, visitsFrom_none found]
      rfl
    | some s =>
      have shorter := length_after_lt found
      let whole := s.before ++ e.markers.opening ++ s.body ++ e.markers.closing
      have next := ih s.after.length (by omega) (done ++ whole) s.after rfl
      have size : byteLength (done ++ whole) =
          byteLength done + byteLength (s.before ++ e.markers.opening) +
            byteLength (s.body ++ e.markers.closing) := by
        simp only [whole, byteLength_append]
        omega
      rw [size] at next
      rw [fill_some e template vars _ _ found, visitsFrom_some found, List.mapM_cons, leftOver]
      simp only [List.nil_append]
      cases parsed : Body.parse? s.body with
      | none =>
        have kept := e.fill_pending template vars free
          (s.before ++ e.markers.opening ++ s.body) []
          (byteLength done + byteLength (s.before ++ e.markers.opening) +
            byteLength (s.body ++ e.markers.closing)) s.after
        rw [List.append_nil, next, ← unescape_closing_end free, unescape_span free] at kept
        simp only [kept, piece, outcome, parsed]
        cases (e.markers.visitsFrom (done ++ whole) s.after).mapM (e.piece template vars) <;>
          simp [Except.map, bind, Except.bind, pure, Except.pure, whole]
      | some b =>
        have place : byteLength (done ++ s.before ++ e.markers.opening) =
            byteLength done + byteLength (s.before ++ e.markers.opening) := by
          rw [List.append_assoc, byteLength_append]
        simp only [piece, outcome, parsed, place, next]
        cases e.expand template vars
          (byteLength done + byteLength (s.before ++ e.markers.opening)) b with
        | error err => rfl
        | ok value =>
          change _ = Except.map _ (do
            let pieces ← (e.markers.visitsFrom (done ++ whole) s.after).mapM (e.piece template vars)
            pure ((e.markers.unescape s.before ++ value) :: pieces))
          cases (e.markers.visitsFrom (done ++ whole) s.after).mapM (e.piece template vars) <;>
            simp [Except.map, bind, Except.bind, pure, Except.pure, whole]

theorem interpolate_visits (free : e.markers.HasNoStandIn) {t : Text}
    (bare : ∀ c ∈ t, isStandIn c = false) :
    e.interpolate t vars =
      ((e.markers.visits (e.markers.escape t)).mapM (e.piece t vars)).map fun pieces =>
        pieces.flatten ++ e.markers.unescape
          (leftOver (e.markers.escape t) (e.markers.visits (e.markers.escape t))) := by
  rw [interpolate_of_no_standIn e vars bare]
  exact e.fill_visits t vars free [] (e.markers.escape t)

theorem interpolate_visited (free : e.markers.HasNoStandIn) {t : Text}
    (bare : ∀ c ∈ t, isStandIn c = false) {done later : List Visit} {v : Visit}
    (visited : e.markers.visits (e.markers.escape t) = done ++ v :: later) :
    e.interpolate t vars =
      (done.mapM (e.piece t vars)).bind fun front =>
        (e.outcome t vars v).bind fun value =>
          (later.mapM (e.piece t vars)).map fun back =>
            front.flatten ++ (e.markers.unescape v.before ++ value) ++ back.flatten ++
              e.markers.unescape (leftOver (e.markers.escape t) (done ++ v :: later)) := by
  rw [e.interpolate_visits vars free bare, visited, List.mapM_append, List.mapM_cons]
  cases done.mapM (e.piece t vars) with
  | error err => rfl
  | ok front =>
    cases found : e.outcome t vars v with
    | error err => simp [piece, found, Except.map, bind, Except.bind]
    | ok value =>
      cases later.mapM (e.piece t vars) <;>
        simp [piece, found, Except.map, bind, Except.bind, pure, Except.pure]

theorem interpolate_eq_error_iff (free : e.markers.HasNoStandIn) {t : Text}
    (bare : ∀ c ∈ t, isStandIn c = false) {err : Error} :
    e.interpolate t vars = .error err ↔ ∃ done v later,
      e.markers.visits (e.markers.escape t) = done ++ v :: later ∧
        (∀ d ∈ done, ∃ value, e.outcome t vars d = .ok value) ∧
        e.outcome t vars v = .error err := by
  have own (v : Visit) : (∃ value, e.piece t vars v = .ok value) ↔
      ∃ value, e.outcome t vars v = .ok value := by
    cases found : e.outcome t vars v <;> simp [piece, found, Except.map]
  have fails (v : Visit) : e.piece t vars v = .error err ↔ e.outcome t vars v = .error err := by
    cases found : e.outcome t vars v <;> simp [piece, found, Except.map]
  rw [e.interpolate_visits vars free bare]
  have mapped {r : Except Error (List Text)} {f : List Text → Text} :
      r.map f = .error err ↔ r = .error err := by
    cases r <;> simp [Except.map]
  simp only [mapped, mapM_eq_error_iff, own, fails]

end Outcome

end Engine

end Docspec
