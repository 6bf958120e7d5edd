import Docspec.Proofs.Placeholders
import Docspec.Proofs.Restoring

set_option autoImplicit false

namespace Docspec

open Text

namespace Text

structure FirstAt (pat t a b : Text) : Prop where
  shape : t = a ++ pat ++ b
  first : ∀ a' b', t = a' ++ pat ++ b' → a.length ≤ a'.length

structure LastAt (pat t a b : Text) : Prop where
  shape : t = a ++ pat ++ b
  last : ∀ a' b', t = a' ++ pat ++ b' → a'.length ≤ a.length

section Places

variable {pat t a b : Text}

theorem firstAt_of_cut? (found : cut? pat t = some (a, b)) : FirstAt pat t a b := by
  refine ⟨cut?_eq_append found, fun a' b' shape => ?_⟩
  induction t generalizing a a' with
  | nil =>
    have empty := cut?_eq_append found
    simp only [List.nil_eq, List.append_eq_nil_iff] at empty
    simp [empty]
  | cons c t ih =>
    rw [cut?] at found
    split at found
    next =>
      obtain ⟨rfl, -⟩ := Prod.mk.inj (Option.some.inj found)
      exact Nat.zero_le _
    next unmatched =>
      obtain ⟨⟨x, y⟩, inside, parts⟩ := Option.map_eq_some_iff.1 found
      obtain ⟨rfl, rfl⟩ := Prod.mk.inj parts
      cases a' with
      | nil =>
        have begins : stripFront? pat (c :: t) = some b' := stripFront?_eq_some_iff.2 shape
        simp [begins] at unmatched
      | cons d a' => exact Nat.succ_le_succ (ih inside a' (List.cons.inj shape).2)

theorem ne_append_of_cutLast? (missing : cutLast? pat t = none) (a b : Text) :
    t ≠ a ++ pat ++ b := by
  intro shape
  induction t generalizing a with
  | nil =>
    simp only [List.nil_eq, List.append_eq_nil_iff] at shape
    simp [cutLast?, shape] at missing
  | cons c t ih =>
    rw [cutLast?] at missing
    split at missing
    next => cases missing
    next absent =>
      cases a with
      | nil =>
        have begins : stripFront? pat (c :: t) = some b := stripFront?_eq_some_iff.2 shape
        simp [begins] at missing
      | cons d a => exact ih absent a (List.cons.inj shape).2

theorem lastAt_of_cutLast? (found : cutLast? pat t = some (a, b)) : LastAt pat t a b := by
  refine ⟨cutLast?_eq_append found, fun a' b' shape => ?_⟩
  induction t generalizing a b a' with
  | nil =>
    simp only [List.nil_eq, List.append_eq_nil_iff] at shape
    simp [shape]
  | cons c t ih =>
    cases a' with
    | nil => exact Nat.zero_le _
    | cons d a' =>
      have inner := (List.cons.inj shape).2
      rw [cutLast?] at found
      split at found
      next x y inside =>
        obtain ⟨rfl, rfl⟩ := Prod.mk.inj (Option.some.inj found)
        exact Nat.succ_le_succ (ih inside a' inner)
      next absent => exact absurd inner (ne_append_of_cutLast? absent a' b')

theorem LastAt.cutLast?_eq (place : LastAt pat t a b) : cutLast? pat t = some (a, b) := by
  cases found : cutLast? pat t with
  | none => exact absurd place.shape (ne_append_of_cutLast? found a b)
  | some parts =>
    obtain ⟨a', b'⟩ := parts
    have other := lastAt_of_cutLast? found
    have size : a'.length = a.length :=
      Nat.le_antisymm (place.last a' b' other.shape) (other.last a b place.shape)
    have same := other.shape.symm.trans place.shape
    rw [List.append_assoc, List.append_assoc] at same
    obtain ⟨rfl, rest⟩ := List.append_inj same size
    rw [List.append_cancel_left rest]

theorem eq_append_of_length_le {x y x' y' : Text} (same : x ++ y = x' ++ y')
    (size : x.length ≤ x'.length) : ∃ z, x' = x ++ z ∧ y = z ++ y' := by
  rcases List.append_eq_append_iff.1 same with ⟨z, left, right⟩ | ⟨z, left, right⟩
  · exact ⟨z, left, right⟩
  · have short : z = [] := by
      rw [left, List.length_append] at size
      exact List.eq_nil_of_length_eq_zero (by omega)
    exact ⟨[], by simp [left, short], by simp [right, short]⟩

theorem LastAt.behind (place : LastAt pat t a b) (p : Text) : LastAt pat (p ++ t) (p ++ a) b := by
  refine ⟨by simp [place.shape], fun a' b' shape => ?_⟩
  rcases Nat.le_total a'.length p.length with short | long
  · rw [List.length_append]
    omega
  · rw [List.append_assoc] at shape
    obtain ⟨z, rfl, inner⟩ := eq_append_of_length_le shape long
    have bound := place.last z b' (by rw [inner, List.append_assoc])
    simpa using bound

theorem lastAt_of_apart (nonempty : pat ≠ []) (apart : Apart pat b) :
    LastAt pat (a ++ pat ++ b) a b := by
  refine ⟨rfl, fun a' b' shape => ?_⟩
  obtain ⟨front, c, rfl⟩ := (List.eq_nil_or_concat' pat).resolve_left nonempty
  by_contra later
  have split : a ++ (front ++ [c]) ++ b = (a' ++ front) ++ (c :: b') := by simp [shape]
  obtain ⟨z, -, rest⟩ := eq_append_of_length_le split (by
    simp only [List.length_append, List.length_singleton]
    omega)
  exact apart c (by simp [rest]) (by simp)

end Places

end Text

namespace Markers

def Span.region (m : Markers) (s : Span) : Text := s.before ++ m.opening ++ s.body

section Region

variable {m : Markers} {t : Text}

theorem visitsFrom_split {start rest : Text} {done later : List Visit} {v : Visit}
    (visited : m.visitsFrom start rest = done ++ v :: later) :
    v.done = start ++ done.flatMap (fun d => d.region m ++ m.closing) ∧
      start ++ rest = v.done ++ (v.region m ++ m.closing ++ v.after) ∧
      m.nextSpan? (v.region m ++ m.closing ++ v.after) = some v.toSpan := by
  induction done generalizing start rest with
  | nil =>
    cases found : m.nextSpan? rest with
    | none => simp [visitsFrom_none found] at visited
    | some s =>
      rw [visitsFrom_some found] at visited
      obtain ⟨rfl, -⟩ := List.cons.inj visited
      have whole := eq_append_of_nextSpan? found
      refine ⟨by simp, congrArg (start ++ ·) whole, ?_⟩
      rw [Span.region, ← whole, found]
  | cons d done ih =>
    cases found : m.nextSpan? rest with
    | none => simp [visitsFrom_none found] at visited
    | some s =>
      rw [visitsFrom_some found] at visited
      obtain ⟨rfl, others⟩ := List.cons.inj visited
      obtain ⟨spans, whole, behind⟩ := ih others
      refine ⟨by simp [spans, Span.region], ?_, behind⟩
      rw [← whole, eq_append_of_nextSpan? found]
      simp

-- The search from the right misses at most opening markers that overlap the first.
theorem nextSpan?_innermost {s : Span} (found : m.nextSpan? t = some s) :
    LastAt m.opening (s.region m) s.before s.body ∨
      FirstAt m.opening (s.region m) s.before s.body ∧
        ∀ a b, s.region m = a ++ m.opening ++ b →
          a.length < s.before.length + m.opening.length := by
  have whole : t = s.region m ++ m.closing ++ s.after := eq_append_of_nextSpan? found
  simp only [nextSpan?] at found
  split at found
  next => cases found
  next before rest opened =>
    split at found
    next => cases found
    next body after _ =>
      split at found
      next missing =>
        obtain rfl := Option.some.inj found
        refine .inr ⟨⟨rfl, fun a b shape => ?_⟩, fun a b shape => ?_⟩
        · refine (firstAt_of_cut? opened).first a (b ++ m.closing ++ after) ?_
          rw [whole, shape]
          simp
        · by_contra far
          rw [Span.region, List.append_assoc a] at shape
          obtain ⟨z, -, inner⟩ := eq_append_of_length_le shape (by
            rw [List.length_append]
            omega)
          exact ne_append_of_cutLast? missing z b (inner.trans (List.append_assoc z _ b).symm)
      next outer inner last =>
        obtain rfl := Option.some.inj found
        have place := lastAt_of_cutLast? last
        have behind := place.behind (before ++ m.opening)
        rw [place.shape, ← List.append_assoc, ← List.append_assoc] at behind
        exact .inl behind

end Region

theorem default_innermost {t : Text} {s : Span} (found : Markers.default.nextSpan? t = some s) :
    (s.body.head? ≠ some '\x7b' →
        LastAt Markers.default.opening (s.region .default) s.before s.body) ∧
      ∀ body, s.body = '\x7b' :: body →
        FirstAt Markers.default.opening (s.region .default) s.before s.body ∧
        LastAt Markers.default.opening (s.region .default) (s.before ++ ['\x7b']) body := by
  have third {body : Text} (braced : s.body = '\x7b' :: body) :
      s.region .default = s.before ++ ['\x7b'] ++ Markers.default.opening ++ body := by
    rw [Span.region, braced, List.append_assoc, List.append_assoc, List.append_assoc]
    rfl
  rcases nextSpan?_innermost found with last | ⟨first, near⟩
  · refine ⟨fun _ => last, fun body braced => ?_⟩
    have later := last.last _ body (third braced)
    rw [List.length_append] at later
    exact absurd later (Nat.not_succ_le_self _)
  · refine ⟨fun other => ⟨rfl, fun a b place => ?_⟩, fun body braced =>
      ⟨first, third braced, fun a b place => ?_⟩⟩
    · by_contra later
      have overlaps := near a b place
      rw [Span.region, List.append_assoc, List.append_assoc a] at place
      obtain ⟨z, rfl, inner⟩ := eq_append_of_length_le place (by omega)
      have size : z.length = 1 := by
        simp only [List.length_append, show Markers.default.opening.length = 2 from rfl]
          at overlaps later
        omega
      obtain ⟨c, rfl⟩ := List.length_eq_one_iff.1 size
      have body : s.body = '\x7b' :: b := (List.cons.inj (List.cons.inj inner).2).2
      exact other (by rw [body, List.head?_cons])
    · have overlaps := near a b place
      rw [List.length_append]
      exact Nat.le_of_lt_succ overlaps

theorem nextSpan?_run {body : Text} (plain : Markers.default.Plain body) (extra : Nat)
    (after : Text) :
    Markers.default.nextSpan?
        (List.replicate (extra + 2) '\x7b' ++ body ++ Markers.default.closing ++ after) =
      some (if extra = 1 then ⟨[], '\x7b' :: body, after⟩
        else ⟨List.replicate extra '\x7b', body, after⟩) := by
  have opens := plain.apart_opening
  have closes : Apart Markers.default.closing (List.replicate extra '\x7b' ++ body) := by
    refine List.forall_mem_append.2 ⟨fun c member => ?_, plain.apart_closing⟩
    rw [List.eq_of_mem_replicate member]
    decide
  have opened : cut? Markers.default.opening
      (List.replicate (extra + 2) '\x7b' ++ body ++ Markers.default.closing ++ after) =
      some ([], List.replicate extra '\x7b' ++ body ++ (Markers.default.closing ++ after)) := by
    rw [← cut?_self Markers.default.opening]
    congr 1
    simp [List.replicate_succ, Markers.default]
  have closed : cut? Markers.default.closing
      (List.replicate extra '\x7b' ++ body ++ (Markers.default.closing ++ after)) =
      some (List.replicate extra '\x7b' ++ body, after) := by
    rw [cut?_append Markers.default.closing_ne_nil closes, cut?_self]
    simp
  have unopened := cutLast?_eq_none Markers.default.opening_ne_nil opens
  simp only [nextSpan?, opened, closed]
  rcases extra with _ | _ | extra
  · simp [unopened]
  · have single : cutLast? Markers.default.opening ('\x7b' :: body) = none := by
      rw [cutLast?, unopened]
      cases body with
      | nil => rfl
      | cons c body =>
        have other : '\x7b' ≠ c := fun same => opens c List.mem_cons_self (same ▸ by decide)
        simp [stripFront?, Markers.default, other]
    simp [single]
  · have run : List.replicate (extra + 2) '\x7b' =
        List.replicate extra '\x7b' ++ Markers.default.opening := List.replicate_add extra 2 '\x7b'
    have last := (lastAt_of_apart (a := List.replicate extra '\x7b')
      Markers.default.opening_ne_nil opens).cutLast?_eq
    rw [← run] at last
    rw [last, if_neg (by omega)]
    rfl

end Markers

namespace Engine

open Placeholder Markers

theorem mapM_piece_bare (e : Engine) (template : Text) (vars : Vars) {rest : Text}
    (bare : ∀ c ∈ rest, isStandIn c = false) (done : Text) :
    (e.markers.visitsFrom done rest).mapM (e.piece template vars) =
        (e.markers.visitsFrom done rest).mapM
          (fun v => (e.outcome template vars v).map (v.before ++ ·)) ∧
      e.markers.unescape (leftOver rest (e.markers.visitsFrom done rest)) =
        leftOver rest (e.markers.visitsFrom done rest) := by
  induction size : rest.length using Nat.strongRecOn generalizing done rest with
  | ind k ih =>
    cases found : e.markers.nextSpan? rest with
    | none =>
      rw [visitsFrom_none found]
      exact ⟨rfl, e.unescape_of_no_standIn bare⟩
    | some s =>
      have whole := eq_append_of_nextSpan? found
      have before : ∀ c ∈ s.before, isStandIn c = false := fun c member =>
        bare c (by simp [whole, member])
      have after : ∀ c ∈ s.after, isStandIn c = false := fun c member =>
        bare c (by simp [whole, member])
      obtain ⟨others, last⟩ := ih s.after.length (size ▸ length_after_lt found) after
        (done ++ (s.before ++ e.markers.opening ++ s.body ++ e.markers.closing)) rfl
      rw [visitsFrom_some found, List.mapM_cons, List.mapM_cons, others, piece,
        e.unescape_of_no_standIn before]
      exact ⟨rfl, last⟩

theorem interpolate_unescaped (e : Engine) (vars : Vars) (free : e.markers.HasNoStandIn) {t : Text}
    (bare : ∀ c ∈ t, isStandIn c = false) (kept : e.markers.escape t = t) :
    e.interpolate t vars =
      ((e.markers.visits t).mapM fun v => (e.outcome t vars v).map (v.before ++ ·)).map
        fun pieces => pieces.flatten ++ leftOver t (e.markers.visits t) := by
  obtain ⟨pieces, last⟩ := e.mapM_piece_bare t vars bare []
  rw [e.interpolate_visits vars free bare, kept, visits, pieces, last]

theorem not_startsLikeName_brace (body : Text) : ¬ StartsLikeName ('\x7b' :: body) := by
  rintro ⟨c, rest, content, start⟩
  obtain ⟨rfl, -⟩ : '\x7b' = c ∧ body = rest := List.cons.inj content
  cases start

def behindBraces (k : Nat) (n : Text) : Text :=
  List.replicate k '\x7b' ++ (' ' :: n ++ [' ']) ++ Markers.default.closing

section Run

variable {n : Text} (named : isVariableName n = true)
include named

theorem unmarked_behindBraces (k : Nat) : Unmarked (behindBraces k n) := by
  have run : Unmarked (List.replicate k '\x7b') := by
    intro c member
    rw [List.eq_of_mem_replicate member]
    decide
  have closing : Unmarked Markers.default.closing := by decide
  exact (run.append (spaced_name_plain named).unmarked).append closing

theorem visits_behindBraces (extra : Nat) :
    Markers.default.visits (behindBraces (extra + 2) n) =
      [if extra = 1 then ⟨⟨[], '\x7b' :: (' ' :: n ++ [' ']), []⟩, []⟩
        else ⟨⟨List.replicate extra '\x7b', ' ' :: n ++ [' '], []⟩, []⟩] := by
  have found := nextSpan?_run (spaced_name_plain named) extra []
  rw [List.append_nil, ← behindBraces] at found
  have missing : Markers.default.nextSpan? [] = none := rfl
  rw [visits, visitsFrom_some found]
  split <;> rw [visitsFrom_none missing]

theorem interpolate_behindBraces (r : Registry) (vars : Vars) (whole : '.' ∉ n) {value : Value}
    (bound : Bindings.get? n vars = some value) (extra : Nat) :
    Engine.interpolate ⟨.default, r⟩ (behindBraces (extra + 2) n) vars =
      .ok (if extra = 1 then behindBraces (extra + 2) n
        else List.replicate extra '\x7b' ++ value.display) := by
  let e : Engine := ⟨.default, r⟩
  have unmarked := unmarked_behindBraces named (extra + 2)
  rw [e.interpolate_unescaped vars default_no_standIn unmarked.no_standIn
    (e.escape_of_no_backtick unmarked.no_backtick), visits_behindBraces named, List.mapM_cons]
  by_cases overlap : extra = 1
  next =>
    have bare : ∀ c ∈ '\x7b' :: (' ' :: n ++ [' ']), isStandIn c = false :=
      List.forall_mem_cons.2 ⟨rfl, (spaced_name_plain named).no_standIn⟩
    rw [if_pos overlap, if_pos overlap, e.outcome_copied _ vars (not_startsLikeName_brace _),
      e.unescape_of_no_standIn bare]
    subst overlap
    simp [Except.map, bind, Except.bind, pure, Except.pure, leftOver, behindBraces, e,
      Markers.default]
  next =>
    rw [if_neg overlap, if_neg overlap, outcome, parse?_name named]
    simp only [expand, resolve_name named whole, bound]
    simp [Registry.applyFilters, Except.map, bind, Except.bind, pure, Except.pure, leftOver]

end Run

theorem interpolate_innermost (r : Registry) (vars : Vars) {t : Text}
    (bare : ∀ c ∈ t, isStandIn c = false) (unescaped : ¬ Markers.default.HasEscape t) :
    let m := Markers.default
    let e : Engine := ⟨m, r⟩
    e.interpolate t vars =
        ((m.visits t).mapM fun v => (e.outcome t vars v).map (v.before ++ ·)).map
          (fun pieces => pieces.flatten ++ leftOver t (m.visits t)) ∧
      (∀ done v later, m.visits t = done ++ v :: later →
        v.done = done.flatMap (fun d => d.region m ++ m.closing) ∧
        t = v.done ++ (v.region m ++ m.closing ++ v.after) ∧
        (v.body.head? ≠ some '\x7b' → LastAt m.opening (v.region m) v.before v.body) ∧
        ∀ body, v.body = '\x7b' :: body →
          FirstAt m.opening (v.region m) v.before v.body ∧
          LastAt m.opening (v.region m) (v.before ++ ['\x7b']) body ∧
          e.outcome t vars v = .ok (m.opening ++ v.body ++ m.closing)) ∧
      ∀ (k : Nat) (n : Text) (value : Value), 2 ≤ k → isVariableName n = true → '.' ∉ n →
        Bindings.get? n vars = some value →
        e.interpolate (behindBraces k n) vars =
          .ok (if k = 3 then behindBraces k n
            else List.replicate (k - 2) '\x7b' ++ value.display) := by
  intro m e
  refine ⟨e.interpolate_unescaped vars default_no_standIn bare (escape_eq_self unescaped),
    fun done v later visited => ?_, fun k n value opened named whole bound => ?_⟩
  · obtain ⟨spans, shape, found⟩ := visitsFrom_split visited
    obtain ⟨last, braced⟩ := default_innermost found
    refine ⟨spans, shape, last, fun body brace => ?_⟩
    obtain ⟨first, inner⟩ := braced body brace
    have inside : ∀ c ∈ v.body, isStandIn c = false := fun c member =>
      bare c (by
        rw [← List.nil_append t, shape]
        simp [Span.region, member])
    have copied := e.outcome_copied t vars (v := v) (brace ▸ not_startsLikeName_brace body)
    rw [e.unescape_of_no_standIn inside] at copied
    exact ⟨first, inner, copied⟩
  · obtain ⟨extra, rfl⟩ := Nat.exists_eq_add_of_le' opened
    have three : extra + 2 = 3 ↔ extra = 1 := by omega
    simp only [three, Nat.add_sub_cancel]
    exact interpolate_behindBraces named r vars whole bound extra

theorem interpolate_innermost_braces :
    let m := Markers.default
    let e := Engine.builtin ⟨0, 0⟩
    let vars : Vars := [("n", .str "v")]
    let t : Text := "\x7b\x7b\x7b n \x7d\x7d"
    let v : Visit := ⟨⟨[], "\x7b n ", []⟩, []⟩
    (∀ c ∈ t, isStandIn c = false) ∧ ¬ m.HasEscape t ∧ m.visits t = [v] ∧
      LastAt m.opening (v.region m) ['\x7b'] " n " ∧
      e.outcome t vars v = .ok "\x7b\x7b\x7b n \x7d\x7d" ∧
      e.interpolate (behindBraces 3 "n") vars = .ok (behindBraces 3 "n") ∧
      e.interpolate (behindBraces 4 "n") vars = .ok "\x7b\x7bv" := by
  intro m e vars t v
  have bare : ∀ c ∈ t, isStandIn c = false := forall_of_any (by decide)
  have unescaped : ¬ m.HasEscape t := by
    rintro ⟨marker, rfl | rfl, inside⟩ <;> revert inside <;> decide
  have visited : m.visits t = [] ++ v :: [] := by
    have found : m.nextSpan? t = some v.toSpan := rfl
    have missing : m.nextSpan? v.after = none := rfl
    rw [visits, visitsFrom_some found, visitsFrom_none missing]
    rfl
  obtain ⟨-, innermost, runs⟩ := interpolate_innermost e.registry vars bare unescaped
  obtain ⟨-, -, -, braced⟩ := innermost [] v [] visited
  obtain ⟨-, last, copied⟩ := braced " n " rfl
  have run (k : Nat) (opened : 2 ≤ k) :=
    runs k "n" (.str "v") opened (by decide) (by decide) rfl
  exact ⟨bare, unescaped, visited, last, copied, run 3 (by decide), run 4 (by decide)⟩

end Engine

end Docspec
