import Docspec.Proofs.Bodies
import Docspec.Proofs.ErrorPlaces
import Docspec.Proofs.Offsets
import Docspec.Proofs.Turns

set_option autoImplicit false

namespace Docspec

open Text

namespace Placeholder

def Registry.call? (r : Registry) (identifier : Text) : Option (Except Error Text) := do
  let size := byteLength identifier
  let paren := (find? ['('] identifier).getD size
  let name ← slice? identifier 0 paren
  guard (0 < size)
  let argument ← slice? identifier (paren + 1) (size - 1)
  match r.function? (trim name) with
  | none => return .error (.unknownFunction (trim name))
  | some f => return (f (trimmed? argument)).mapError fun m => .functionFailed (trim name) m

structure CallBounds (identifier : Text) : Prop where
  paren : ∃ paren, find? ['('] identifier = some paren ∧ isBoundary identifier paren = true ∧
    isBoundary identifier (paren + 1) = true ∧ paren + 1 ≤ byteLength identifier - 1
  stop : isBoundary identifier (byteLength identifier - 1) = true

end Placeholder

namespace Markers

/-- The offsets a turn of the loop works out: of the first opening marker and behind it, of the
last one before the closing marker and behind it, and of the closing marker and behind it. -/
structure Offsets where
  found : Nat
  behind : Nat
  start : Nat
  bodyStart : Nat
  stop : Nat
  next : Nat

def offsets? (m : Markers) (work : Text) (cursor : Nat) : Option (Option Offsets) := do
  let rest ← slice? work cursor (byteLength work)
  match find? m.opening rest with
  | none => return none
  | some ahead =>
    let found := cursor + ahead
    let behind := found + byteLength m.opening
    let rest ← slice? work behind (byteLength work)
    match find? m.closing rest with
    | none => return none
    | some ahead =>
      let stop := behind + ahead
      let next := stop + byteLength m.closing
      let inside ← slice? work behind stop
      match rfind? m.opening inside with
      | none => return some ⟨found, behind, found, behind, stop, next⟩
      | some inner =>
        let start := behind + inner
        return some ⟨found, behind, start, start + byteLength m.opening, stop, next⟩

def closings (m : Markers) (t : Text) : Nat :=
  match _h : cut? m.closing t with
  | none => 0
  | some (_, after) => m.closings after + 1
termination_by t.length
decreasing_by
  have size := congrArg List.length (cut?_eq_append _h)
  have visible := List.length_pos_iff.2 m.closing_ne_nil
  simp only [List.length_append] at size
  omega

end Markers

namespace Engine

open Placeholder

/-- What is written, up to which offset the working copy is written, and where the next search
starts. -/
structure Scan where
  out : Text
  copied : Nat
  cursor : Nat

def Scan.start : Scan := ⟨[], 0, 0⟩

structure Pass extends Markers.Offsets where
  copied : Nat
  cursor : Nat

section Loop

variable (e : Engine) (template : Text) (vars : Vars)

def resolve? (identifier : Text) : Option (Except Error Text) :=
  if '.' ∈ identifier then some (e.resolve vars identifier)
  else
    match Bindings.get? identifier vars with
    | some v => some (.ok v.display)
    | none =>
      if identifier.getLast? = some ')' then e.registry.call? identifier else some (.ok [])

def expand? (offset : Nat) (b : Body) : Option (Except Error Text) :=
  if b.invalid ≠ [] then
    some (.error (.malformed b.invalid (locate template (offset + b.invalidOffset))))
  else do
    let found ← e.resolve? vars b.identifier
    return found.bind (e.registry.applyFilters b.filters)

def scan? (work : Text) (s : Scan) : Option (Turning Scan Pass (Except Error Text)) := do
  match ← e.markers.offsets? work s.cursor with
  | none =>
    let rest ← slice? work s.copied (byteLength work)
    return .left (.ok (s.out ++ e.markers.unescape rest))
  | some o =>
    let pass : Pass := { o with copied := s.copied, cursor := s.cursor }
    let body ← slice? work o.bodyStart o.stop
    match Body.parse? body with
    | none => return .passed pass ⟨s.out, s.copied, o.next⟩
    | some b =>
      match ← e.expand? template vars o.bodyStart b with
      | .error err => return .ended pass (.error err)
      | .ok value =>
        let literal ← slice? work s.copied o.start
        return .passed pass ⟨s.out ++ e.markers.unescape literal ++ value, o.next, o.next⟩

end Loop

structure Pass.InBounds (m : Markers) (work : Text) (p : Pass) : Prop where
  copied_le : p.copied ≤ p.cursor
  cursor_le : p.cursor ≤ p.found
  found_le : p.found ≤ p.start
  behind_le : p.behind ≤ p.bodyStart
  found_lt : p.found < p.behind
  start_lt : p.start < p.bodyStart
  body_le : p.bodyStart ≤ p.stop
  stop_lt : p.stop < p.next
  next_le : p.next ≤ byteLength work
  between : ∀ n ∈ [p.copied, p.cursor, p.found, p.behind, p.start, p.bodyStart, p.stop, p.next],
    isBoundary work n = true
  closing : slice? work p.stop p.next = some m.closing
  call : ∀ body b, slice? work p.bodyStart p.stop = some body → Body.parse? body = some b →
    b.identifier.getLast? = some ')' → CallBounds b.identifier

end Engine

namespace Placeholder

section Calls

variable {identifier : Text}

theorem IsCall.cut (isCall : IsCall identifier) :
    ∃ front argument, identifier = front ++ ['('] ++ argument ++ [')'] ∧ '(' ∉ front := by
  cases isCall with
  | @mk name gap argument named _ blank _ =>
    refine ⟨name ++ gap, argument, by simp, fun member => ?_⟩
    rcases List.mem_append.1 member with inName | inGap
    · exact absurd (chars_of_isName named _ inName) (by decide)
    · exact absurd (blank _ inGap) (by decide)

theorem find?_paren {front : Text} (absent : '(' ∉ front) (t : Text) :
    find? ['('] (front ++ ['('] ++ t) = some (byteLength front) := by
  have apart : Apart ['('] front := fun c member => by
    simpa using fun same : c = '(' => absent (same ▸ member)
  rw [find?_eq (by simp), List.append_assoc, cut?_append (by simp) apart, cut?_self]
  simp

theorem slice?_argument (front argument : Text) :
    slice? (front ++ ['('] ++ argument ++ [')']) (byteLength front + 1)
      (byteLength (front ++ ['('] ++ argument ++ [')']) - 1) = some argument := by
  have start : byteLength (front ++ ['(']) = byteLength front + 1 := by
    rw [byteLength_append]
    rfl
  have stop : byteLength (front ++ ['('] ++ argument ++ [')']) =
      byteLength (front ++ ['('] ++ argument) + 1 := by
    rw [byteLength_append _ [')']]
    rfl
  rw [stop, Nat.add_sub_cancel, ← start]
  exact slice?_append _ _ _

theorem IsCall.bounds (isCall : IsCall identifier) : CallBounds identifier := by
  obtain ⟨front, argument, rfl, absent⟩ := isCall.cut
  obtain ⟨order, start, stop⟩ := bounds_of_slice? (slice?_argument front argument)
  have found := find?_paren absent (argument ++ [')'])
  have paren := isBoundary_append front (['('] ++ argument ++ [')'])
  simp only [← List.append_assoc] at found paren
  exact ⟨⟨_, found, paren, start, order⟩, stop⟩

theorem Registry.call?_eq (r : Registry) (isCall : IsCall identifier) :
    r.call? identifier = some (r.call identifier) := by
  obtain ⟨front, argument, rfl, absent⟩ := isCall.cut
  have found := find?_paren absent (argument ++ [')'])
  have name := slice?_append [] front (['('] ++ argument ++ [')'])
  have positive : 0 < byteLength (front ++ ['('] ++ argument ++ [')']) := by
    rw [byteLength_append _ [')']]
    exact Nat.succ_pos _
  have passed : ∀ d ∈ front, decide (d = '(') = false := fun d member => by
    simpa using fun same : d = '(' => absent (same ▸ member)
  have split : splitOnce (· = '(') (front ++ ['('] ++ argument ++ [')']) =
      some (front, argument ++ [')']) := by
    simpa using splitOnce_append passed (by simp) (argument ++ [')'])
  simp only [← List.append_assoc, List.nil_append, byteLength_nil] at found name
  rw [call?, found]
  simp only [Option.getD_some, name, slice?_argument, positive, guard, if_true,
    Option.bind_eq_bind, Option.bind_some]
  rw [call, split]
  simp only [Option.getD_some, List.dropLast_concat]
  cases r.function? (trim front) <;> rfl

theorem isCall_of_parse? {body : Text} {b : Body} (parsed : Body.parse? body = some b)
    (closes : b.identifier.getLast? = some ')') : IsCall b.identifier := by
  have starts : StartsLikeName body := by
    by_contra other
    rw [Body.parse?_eq_none other] at parsed
    cases parsed
  obtain ⟨p⟩ := starts.parts
  rw [Body.parse?_parts p] at parsed
  cases parsed
  cases p.identifies with
  | call _ isCall => exact isCall
  | name _ _ named _ =>
    have last := name_chars named _ (List.mem_of_getLast? closes)
    exact absurd last (by decide)

end Calls

end Placeholder

namespace Engine

open Placeholder

section Loop

variable (e : Engine) (template : Text) (vars : Vars)

theorem resolve?_eq {identifier : Text}
    (closes : identifier.getLast? = some ')' → IsCall identifier) :
    e.resolve? vars identifier = some (e.resolve vars identifier) := by
  rw [resolve?]
  split
  next => rfl
  next plain =>
    rw [resolve, if_neg plain]
    cases Bindings.get? identifier vars with
    | some v => rfl
    | none =>
      dsimp only
      split
      next last => exact e.registry.call?_eq (closes last)
      next => rfl

theorem expand?_eq {body : Text} {b : Body} (parsed : Body.parse? body = some b) (offset : Nat) :
    e.expand? template vars offset b = some (e.expand template vars offset b) := by
  rw [expand?, expand]
  split
  next => rfl
  next =>
    rw [e.resolve?_eq vars (isCall_of_parse? parsed)]
    rfl

end Loop

end Engine

namespace Markers

structure Offsets.Marks (o : Offsets) (m : Markers) (done : Text) (s : Span) : Prop where
  start : o.start = byteLength (done ++ s.before)
  bodyStart : o.bodyStart = byteLength (done ++ s.before ++ m.opening)
  stop : o.stop = byteLength (done ++ s.before ++ m.opening ++ s.body)
  next : o.next = byteLength (done ++ s.before ++ m.opening ++ s.body ++ m.closing)
  first : ∃ a b, s.before ++ m.opening = a ++ m.opening ++ b ∧
    o.found = byteLength (done ++ a) ∧ o.behind = byteLength (done ++ a ++ m.opening)

theorem exists_offsets? (m : Markers) (done rest : Text) :
    ∃ o?, m.offsets? (done ++ rest) (byteLength done) = some o? ∧
      Option.Rel (fun o s => Offsets.Marks o m done s) o? (m.nextSpan? rest) := by
  rw [offsets?, nextSpan?]
  simp only [slice?_end, Option.bind_eq_bind, Option.bind_some, find?_eq m.opening_ne_nil]
  cases opened : cut? m.opening rest with
  | none => exact ⟨none, rfl, .none⟩
  | some parts =>
    obtain ⟨before, behind⟩ := parts
    have whole : done ++ rest = done ++ before ++ m.opening ++ behind := by
      simp [cut?_eq_append opened]
    have place : byteLength done + byteLength before + byteLength m.opening =
        byteLength (done ++ before ++ m.opening) := by
      rw [byteLength_append, byteLength_append]
    simp only [Option.map_some, place, whole, slice?_end, Option.bind_some,
      find?_eq m.closing_ne_nil]
    cases closed : cut? m.closing behind with
    | none => exact ⟨none, rfl, .none⟩
    | some parts =>
      obtain ⟨inside, after⟩ := parts
      have inner : slice? (done ++ before ++ m.opening ++ behind)
          (byteLength (done ++ before ++ m.opening))
          (byteLength (done ++ before ++ m.opening ++ inside)) = some inside := by
        rw [cut?_eq_append closed, List.append_assoc inside, ← List.append_assoc _ inside]
        exact slice?_append _ _ _
      simp only [Option.map_some, ← byteLength_append, inner, Option.bind_some,
        rfind?_eq m.opening_ne_nil]
      cases last : cutLast? m.opening inside with
      | none =>
        refine ⟨_, rfl, .some ⟨rfl, rfl, rfl, rfl, before, [], by simp, rfl, rfl⟩⟩
      | some parts =>
        obtain ⟨outer, body⟩ := parts
        have split := cutLast?_eq_append last
        refine ⟨_, rfl, .some ⟨?_, ?_, ?_, ?_, before, outer ++ m.opening, by simp, rfl, rfl⟩⟩
        · simp [Nat.add_assoc]
        · simp [Nat.add_assoc]
        · simp [split]
        · simp [split]

section Marks

variable {m : Markers} {o : Offsets} {rest : Text} {s : Span}

theorem Offsets.Marks.slice?_body {done : Text} (marks : o.Marks m done s)
    (spanned : m.nextSpan? rest = some s) :
    slice? (done ++ rest) o.bodyStart o.stop = some s.body := by
  have cut := slice?_append (done ++ s.before ++ m.opening) s.body (m.closing ++ s.after)
  rw [marks.bodyStart, marks.stop, eq_append_of_nextSpan? spanned]
  simp only [List.append_assoc] at cut ⊢
  exact cut

theorem Offsets.Marks.slice?_literal {written pending : Text}
    (marks : o.Marks m (written ++ pending) s) (spanned : m.nextSpan? rest = some s) :
    slice? (written ++ pending ++ rest) (byteLength written) o.start =
      some (pending ++ s.before) := by
  have cut := slice?_append written (pending ++ s.before)
    (m.opening ++ s.body ++ m.closing ++ s.after)
  rw [marks.start, eq_append_of_nextSpan? spanned]
  simp only [List.append_assoc] at cut ⊢
  exact cut

theorem Offsets.Marks.bodyStart_eq {done : Text} (marks : o.Marks m done s) :
    byteLength done + byteLength (s.before ++ m.opening) = o.bodyStart := by
  rw [marks.bodyStart, List.append_assoc, byteLength_append done]

theorem Offsets.Marks.next_eq {done : Text} (marks : o.Marks m done s) :
    o.bodyStart + byteLength (s.body ++ m.closing) = o.next := by
  rw [marks.bodyStart, marks.next, List.append_assoc _ s.body, byteLength_append _ (_ ++ m.closing)]

end Marks

section Closings

variable (m : Markers)

theorem closings_none {t : Text} (missing : cut? m.closing t = none) : m.closings t = 0 := by
  rw [closings]
  split
  next => rfl
  next found => exact absurd (missing.symm.trans found) (by simp)

theorem closings_some {t before after : Text} (found : cut? m.closing t = some (before, after)) :
    m.closings t = m.closings after + 1 := by
  rw [closings]
  split
  next missing => exact absurd (found.symm.trans missing) (by simp)
  next before' after' another =>
    obtain ⟨-, rfl⟩ := Prod.mk.inj (Option.some.inj (found.symm.trans another))
    rfl

-- Text in front of another may take part of its first closing marker, but no more than that.
theorem closings_le (a t : Text) : m.closings t ≤ m.closings (a ++ t) := by
  induction size : t.length using Nat.strongRecOn generalizing a t with
  | ind n ih =>
    cases found : cut? m.closing t with
    | none =>
      rw [m.closings_none found]
      exact Nat.zero_le _
    | some parts =>
      obtain ⟨before, after⟩ := parts
      obtain rfl := cut?_eq_append found
      obtain ⟨before', more, found'⟩ := cut?_behind m.closing (a ++ before) after
      have visible := List.length_pos_iff.2 m.closing_ne_nil
      simp only [List.length_append] at size
      have rest := ih after.length (by omega) more after rfl
      simp only [← List.append_assoc] at found' ⊢
      rw [m.closings_some found, m.closings_some found']
      omega

theorem closings_after_lt {t : Text} {s : Span} (spanned : m.nextSpan? t = some s) :
    m.closings s.after < m.closings t := by
  obtain ⟨before, more, found⟩ :=
    cut?_behind m.closing (s.before ++ m.opening ++ s.body) s.after
  have rest := m.closings_le more s.after
  rw [← eq_append_of_nextSpan? spanned] at found
  rw [m.closings_some found]
  omega

end Closings

end Markers

namespace Engine

open Placeholder Markers

theorem Pass.inBounds {m : Markers} {done rest : Text} {s : Span} {o : Offsets} {copied : Nat}
    (spanned : m.nextSpan? rest = some s) (marks : o.Marks m done s)
    (copied_le : copied ≤ byteLength done) (boundary : isBoundary (done ++ rest) copied = true) :
    Pass.InBounds m (done ++ rest) { o with copied, cursor := byteLength done } := by
  obtain ⟨start, bodyStart, stop, next, a, b, first, found, behind⟩ := marks
  have whole := eq_append_of_nextSpan? spanned
  have total : done ++ rest =
      done ++ s.before ++ m.opening ++ s.body ++ m.closing ++ s.after := by
    simp [whole]
  have inside {n : Nat} {x : Text} (place : n = byteLength x) (y : Text)
      (shape : done ++ rest = x ++ y) : isBoundary (done ++ rest) n = true := by
    rw [place, shape]
    exact isBoundary_append x y
  have cursor := inside rfl rest rfl
  have atFound := inside found (m.opening ++ b ++ s.body ++ m.closing ++ s.after) (by
    rw [whole, first]
    simp)
  have atBehind := inside behind (b ++ s.body ++ m.closing ++ s.after) (by
    rw [whole, first]
    simp)
  have atStart := inside start (m.opening ++ s.body ++ m.closing ++ s.after) (by simp [whole])
  have atBody := inside bodyStart (s.body ++ m.closing ++ s.after) (by simp [whole])
  have atStop := inside stop (m.closing ++ s.after) (by simp [whole])
  have atNext := inside next s.after total
  have closed := slice?_append (done ++ s.before ++ m.opening ++ s.body) m.closing s.after
  rw [← total, ← stop, ← next] at closed
  have opening := byteLength_pos m.opening_ne_nil
  have closing := byteLength_pos m.closing_ne_nil
  have size := congrArg byteLength first
  simp only [byteLength_append] at size found behind start bodyStart stop next
  exact {
    copied_le
    cursor_le := by simp only [found]; omega
    found_le := by simp only [found, start]; omega
    behind_le := by simp only [behind, bodyStart]; omega
    found_lt := by simp only [found, behind]; omega
    start_lt := by simp only [start, bodyStart]; omega
    body_le := by simp only [bodyStart, stop]; omega
    stop_lt := by simp only [stop, next]; omega
    next_le := by simp only [next, total, byteLength_append]; omega
    between := by simp [boundary, cursor, atFound, atBehind, atStart, atBody, atStop, atNext]
    closing := closed
    call := fun _ _ _ parsed closes => (isCall_of_parse? parsed closes).bounds }

/-- What the turns from an offset of a working copy on have in common: each starts where the one
before it stopped, they are no more than the closing markers ahead, and all are in bounds. -/
structure Progress (m : Markers) (work : Text) (cursor closings : Nat) (passes : List Pass) :
    Prop where
  onward : ∃ last, Onward Pass.cursor (·.next) cursor passes last
  few : passes.length ≤ closings
  inBounds : ∀ p ∈ passes, p.InBounds m work

section Progress

variable {m : Markers} {work : Text} {cursor closings : Nat}

theorem Progress.nil : Progress m work cursor closings [] where
  onward := ⟨cursor, .nil⟩
  few := Nat.zero_le _
  inBounds := fun _ member => by cases member

theorem Progress.cons {p : Pass} {passes : List Pass} {fewer : Nat} (bounds : p.InBounds m work)
    (rest : Progress m work p.next fewer passes) (less : fewer < closings) :
    Progress m work p.cursor closings (p :: passes) where
  onward := by
    obtain ⟨last, onward⟩ := rest.onward
    exact ⟨last, .cons onward⟩
  few := Nat.le_trans (Nat.succ_le_succ rest.few) less
  inBounds := List.forall_mem_cons.2 ⟨bounds, rest.inBounds⟩

end Progress

section Loop

variable (e : Engine) (template : Text) (vars : Vars)

section Turn

variable {work : Text} (out : Text) {copied cursor : Nat}

theorem scan?_left {rest : Text} (missing : e.markers.offsets? work cursor = some none)
    (tail : slice? work copied (byteLength work) = some rest) :
    e.scan? template vars work ⟨out, copied, cursor⟩ =
      some (.left (.ok (out ++ e.markers.unescape rest))) := by
  simp only [scan?, missing, tail, Option.bind_eq_bind, Option.bind_some]
  rfl

theorem scan?_found {o : Offsets} {body literal : Text}
    (found : e.markers.offsets? work cursor = some (some o))
    (cut : slice? work o.bodyStart o.stop = some body)
    (between : slice? work copied o.start = some literal) :
    e.scan? template vars work ⟨out, copied, cursor⟩ =
      match Body.parse? body with
      | none => some (.passed { o with copied, cursor } ⟨out, copied, o.next⟩)
      | some b =>
        match e.expand template vars o.bodyStart b with
        | .error err => some (.ended { o with copied, cursor } (.error err))
        | .ok value =>
          some (.passed { o with copied, cursor }
            ⟨out ++ e.markers.unescape literal ++ value, o.next, o.next⟩) := by
  simp only [scan?, found, cut, Option.bind_eq_bind, Option.bind_some]
  cases parsed : Body.parse? body with
  | none => rfl
  | some b =>
    simp only [e.expand?_eq template vars parsed, Option.bind_some]
    cases e.expand template vars o.bodyStart b with
    | error err => rfl
    | ok value =>
      simp only [between, Option.bind_some]
      rfl

end Turn

-- The induction is on what is ahead of the search. What is written and what is only read stand
-- apart in front of it, since a body that is none of a placeholder moves one of the offsets alone.
theorem exists_runs {work : Text} (rest written pending out : Text)
    (whole : work = written ++ pending ++ rest) :
    ∃ passes, Runs (e.scan? template vars work)
        ⟨out, byteLength written, byteLength (written ++ pending)⟩ passes
        ((e.fill template vars pending (byteLength (written ++ pending)) rest).map (out ++ ·)) ∧
      Progress e.markers work (byteLength (written ++ pending)) (e.markers.closings rest)
        passes := by
  induction size : rest.length using Nat.strongRecOn generalizing rest written pending out with
  | ind n ih =>
    obtain ⟨o?, offsets, marked⟩ := e.markers.exists_offsets? (written ++ pending) rest
    rw [← whole] at offsets
    cases spanned : e.markers.nextSpan? rest with
    | none =>
      rw [spanned] at marked
      cases marked
      have tail : slice? work (byteLength written) (byteLength work) = some (pending ++ rest) := by
        rw [whole, List.append_assoc]
        exact slice?_end _ _
      rw [e.fill_none template vars _ _ spanned]
      exact ⟨[], .left (e.scan?_left template vars out offsets tail), .nil⟩
    | some s =>
      rw [spanned] at marked
      obtain ⟨o, rfl, marks⟩ : ∃ o, o? = some o ∧ o.Marks e.markers (written ++ pending) s := by
        cases marked with
        | some marks => exact ⟨_, rfl, marks⟩
      have shape := eq_append_of_nextSpan? spanned
      have less := e.markers.closings_after_lt spanned
      have shorter := length_after_lt spanned
      have reach : byteLength written ≤ byteLength (written ++ pending) := by
        rw [byteLength_append]
        exact Nat.le_add_right _ _
      have boundary : isBoundary work (byteLength written) = true := by
        rw [whole, List.append_assoc]
        exact isBoundary_append _ _
      have bounds := Pass.inBounds spanned marks reach (whole ▸ boundary)
      rw [← whole] at bounds
      have cut := marks.slice?_body spanned
      have literal := marks.slice?_literal spanned
      rw [← whole] at cut literal
      have turn := e.scan?_found template vars out offsets cut literal
      rw [e.fill_some template vars _ _ spanned]
      simp only [marks.bodyStart_eq, marks.next_eq]
      cases parsed : Body.parse? s.body with
      | none =>
        obtain ⟨passes, runs, progress⟩ := ih s.after.length (by omega) s.after written
          (pending ++ s.before ++ e.markers.opening ++ s.body ++ e.markers.closing) out
          (by simp [whole, shape]) rfl
        simp only [← List.append_assoc, ← marks.next] at runs progress
        rw [parsed] at turn
        exact ⟨_ :: passes, .passed turn runs, .cons bounds progress less⟩
      | some b =>
        simp only [parsed] at turn
        dsimp only
        cases filled : e.expand template vars o.bodyStart b with
        | error err =>
          rw [filled] at turn
          exact ⟨_, .ended turn, .cons bounds .nil less⟩
        | ok value =>
          obtain ⟨passes, runs, progress⟩ := ih s.after.length (by omega) s.after
            (written ++ pending ++ s.before ++ e.markers.opening ++ s.body ++ e.markers.closing) []
            (out ++ e.markers.unescape (pending ++ s.before) ++ value)
            (by simp [whole, shape]) rfl
          simp only [List.append_nil, ← marks.next] at runs progress
          rw [filled] at turn
          refine ⟨_ :: passes, .passed turn ?_, .cons bounds progress less⟩
          convert runs using 1
          cases e.fill template vars [] o.next s.after with
          | error err => rfl
          | ok tail => simp [Except.bind, Except.map]

theorem interpolate_in_bounds :
    ∃ passes result,
      (∀ passes' result', Runs (e.scan? template vars (e.markers.escape template)) .start
        passes' result' ↔ passes' = passes ∧ result' = result) ∧
      Progress e.markers (e.markers.escape template) 0
        (e.markers.closings (e.markers.escape template)) passes ∧
      ((∃ before c after, template = before ++ c :: after ∧ Markers.isStandIn c = true ∧
          (∀ d ∈ before, Markers.isStandIn d = false) ∧
          e.interpolate template vars =
            .error (.malformed (standInCode c) (.behind before))) ∨
        (∀ c ∈ template, Markers.isStandIn c = false) ∧ e.interpolate template vars = result) := by
  obtain ⟨passes, runs, progress⟩ :=
    e.exists_runs template vars (e.markers.escape template) [] [] [] rfl
  have plain : (e.fill template vars [] 0 (e.markers.escape template)).map ([] ++ ·) =
      e.fill template vars [] 0 (e.markers.escape template) := by
    cases e.fill template vars [] 0 (e.markers.escape template) <;> rfl
  refine ⟨passes, _, fun _ _ => runs.iff, progress, ?_⟩
  by_cases free : ∀ c ∈ template, Markers.isStandIn c = false
  next => exact .inr ⟨free, (interpolate_of_no_standIn e vars free).trans plain.symm⟩
  next =>
    obtain ⟨c, found⟩ : ∃ c, List.find? Markers.isStandIn template = some c := by
      rw [← Option.isSome_iff_exists, List.find?_isSome]
      simpa using free
    obtain ⟨standIn, before, after, rfl, apart⟩ := List.find?_eq_some_iff_append.1 found
    have bare : ∀ d ∈ before, Markers.isStandIn d = false := by simpa using apart
    exact .inl ⟨before, c, after, rfl, standIn, bare, e.interpolate_standIn_place vars bare standIn⟩

end Loop

end Engine

end Docspec
