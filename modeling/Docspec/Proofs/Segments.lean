import Docspec.Proofs.Filling
import Mathlib.Data.List.Forall2

set_option autoImplicit false

namespace Docspec

open Text

namespace Placeholder

inductive Segment
  | literal (t : Text)
  | openingEscape
  | closingEscape
  | placeholder (body : Text)

namespace Segment

def text (m : Markers) : Segment → Text
  | literal t => t
  | openingEscape => Markers.escaped m.opening
  | closingEscape => Markers.escaped m.closing
  | placeholder body => m.opening ++ body ++ m.closing

def Plain (m : Markers) : Segment → Prop
  | literal t => m.Plain t
  | placeholder body => m.Plain body
  | openingEscape | closingEscape => True

instance (m : Markers) (s : Segment) : Decidable (s.Plain m) :=
  match s with
  | literal t => inferInstanceAs (Decidable (m.Plain t))
  | placeholder body => inferInstanceAs (Decidable (m.Plain body))
  | openingEscape | closingEscape => isTrue trivial

def working (m : Markers) : Segment → Text
  | openingEscape => m.openingRun
  | closingEscape => m.closingRun
  | s => s.text m

def bare (m : Markers) : Segment → Text
  | openingEscape => m.opening
  | closingEscape => m.closing
  | s => s.text m

def textOf (m : Markers) (segments : List Segment) : Text := segments.flatMap (text m)

variable {m : Markers}

theorem byteLength_working (s : Segment) : byteLength (s.working m) = byteLength (s.text m) := by
  cases s with
  | literal | placeholder => rfl
  | openingEscape => exact Markers.byteLength_replicate _ rfl
  | closingEscape => exact Markers.byteLength_replicate _ rfl

theorem no_backtick {body : Text} (plain : m.Plain body) :
    backtick ∉ m.opening ++ body ++ m.closing := by
  simp [m.no_backtick, plain.no_backtick]

theorem no_standIn (free : m.HasNoStandIn) {body : Text} (plain : m.Plain body) :
    ∀ c ∈ m.opening ++ body ++ m.closing, Markers.isStandIn c = false := by
  intro c member
  simp only [List.mem_append] at member
  rcases member with (inOpening | inBody) | inClosing
  · exact free c (by simp [inOpening])
  · exact plain.no_standIn c inBody
  · exact free c (by simp [inClosing])

theorem text_no_standIn (free : m.HasNoStandIn) {s : Segment} (plain : s.Plain m) :
    ∀ c ∈ s.text m, Markers.isStandIn c = false := by
  have escaped (marker : Text) (inside : ∀ c ∈ marker, Markers.isStandIn c = false) :
      ∀ c ∈ Markers.escaped marker, Markers.isStandIn c = false := by
    intro c member
    simp only [Markers.escaped, List.mem_cons, List.mem_append, List.not_mem_nil, or_false]
      at member
    rcases member with (rfl | inMarker) | rfl
    · rfl
    · exact inside c inMarker
    · rfl
  cases s with
  | literal t => exact Markers.Plain.no_standIn plain
  | openingEscape => exact escaped _ fun c member => free c (by simp [member])
  | closingEscape => exact escaped _ fun c member => free c (by simp [member])
  | placeholder body => exact no_standIn free plain

theorem escape_text {s : Segment} (plain : s.Plain m) (t : Text) :
    m.escape (s.text m ++ t) = s.working m ++ m.escape t := by
  cases s with
  | literal a => exact m.escape_append (Markers.Plain.no_backtick plain) t
  | openingEscape => exact m.escape_opening t
  | closingEscape => exact m.escape_closing t
  | placeholder body => exact m.escape_append (no_backtick plain) t

theorem unescape_working (free : m.HasNoStandIn) {s : Segment} (plain : s.Plain m) (t : Text) :
    m.unescape (s.working m ++ t) = s.bare m ++ m.unescape t := by
  cases s with
  | literal a => exact m.unescape_append (Markers.Plain.no_standIn plain) t
  | openingEscape => exact m.unescape_opening t
  | closingEscape => exact m.unescape_closing t
  | placeholder body => exact m.unescape_append (no_standIn free plain) t

theorem escape_textOf {segments : List Segment} (plain : ∀ s ∈ segments, s.Plain m) :
    m.escape (textOf m segments) = segments.flatMap (working m) := by
  induction segments with
  | nil => rfl
  | cons s rest ih =>
    have tail := ih fun r member => plain r (by simp [member])
    rw [textOf, List.flatMap_cons, escape_text (plain s (by simp)), List.flatMap_cons]
    exact congrArg _ tail

theorem unescape_copied (free : m.HasNoStandIn) {segments : List Segment}
    (plain : ∀ s ∈ segments, s.Plain m) :
    m.unescape (segments.flatMap (working m)) = segments.flatMap (bare m) := by
  induction segments with
  | nil => rfl
  | cons s rest ih =>
    have tail := ih fun r member => plain r (by simp [member])
    rw [List.flatMap_cons, unescape_working free (plain s (by simp)), List.flatMap_cons, tail]

theorem no_standIn_textOf (free : m.HasNoStandIn) {segments : List Segment}
    (plain : ∀ s ∈ segments, s.Plain m) : ∀ c ∈ textOf m segments, Markers.isStandIn c = false := by
  intro c member
  obtain ⟨s, inside, inText⟩ := List.mem_flatMap.1 member
  exact text_no_standIn free (plain s inside) c inText

def outcome (e : Engine) (template : Text) (vars : Vars) (offset : Nat) :
    Segment → Except Error Text
  | literal t => .ok t
  | openingEscape => .ok e.markers.opening
  | closingEscape => .ok e.markers.closing
  | placeholder body =>
    match Body.parse? body with
    | none => .ok (e.markers.opening ++ body ++ e.markers.closing)
    | some b => e.expand template vars (offset + byteLength e.markers.opening) b

def outcomes (e : Engine) (template : Text) (vars : Vars) : Nat → List Segment → Except Error Text
  | _, [] => .ok []
  | offset, s :: rest =>
    (s.outcome e template vars offset).bind fun t =>
      (outcomes e template vars (offset + byteLength (s.text e.markers)) rest).map (t ++ ·)

theorem apart_working {m : Markers} (free : m.HasNoStandIn) {s : Segment} (plain : s.Plain m)
    (written : ∀ body, s ≠ placeholder body) : Apart m.opening (s.working m) := by
  have run (n : Nat) {c : Char} (standIn : Markers.isStandIn c = true) :
      Apart m.opening (List.replicate n c) := by
    intro d member inMarker
    obtain rfl := List.eq_of_mem_replicate member
    simp [free d (by simp [inMarker])] at standIn
  cases s with
  | literal t => exact Markers.Plain.apart_opening plain
  | openingEscape => exact run _ rfl
  | closingEscape => exact run _ rfl
  | placeholder body => exact absurd rfl (written body)

-- `copied` are the segments that wait, still escaped, for the next value to be written before it.
theorem fill_segments {e : Engine} (free : e.markers.HasNoStandIn) (template : Text) (vars : Vars)
    (offset : Nat) (copied : List Segment) {segments : List Segment}
    (plainCopied : ∀ s ∈ copied, s.Plain e.markers) (plain : ∀ s ∈ segments, s.Plain e.markers) :
    e.fill template vars (copied.flatMap (working e.markers)) offset
        (segments.flatMap (working e.markers)) =
      (outcomes e template vars offset segments).map (copied.flatMap (bare e.markers) ++ ·) := by
  induction segments generalizing copied offset with
  | nil =>
    rw [List.flatMap_nil, Engine.fill_none _ _ _ _ _ e.markers.nextSpan?_nil, List.append_nil,
      unescape_copied free plainCopied]
    simp [outcomes, Except.map]
  | cons s rest ih =>
    have plainHead : s.Plain e.markers := plain s (by simp)
    have plainRest : ∀ r ∈ rest, r.Plain e.markers := fun r member => plain r (by simp [member])
    -- A segment that is not filled in joins the segments that wait.
    have wait (kept : s.outcome e template vars offset = .ok (s.bare e.markers)) :
        e.fill template vars (copied.flatMap (working e.markers) ++ s.working e.markers)
            (offset + byteLength (s.working e.markers)) (rest.flatMap (working e.markers)) =
          (outcomes e template vars offset (s :: rest)).map
            (copied.flatMap (bare e.markers) ++ ·) := by
      have plainMore : ∀ r ∈ copied ++ [s], r.Plain e.markers := by
        intro r member
        rcases List.mem_append.1 member with before | last
        · exact plainCopied r before
        · exact List.mem_singleton.1 last ▸ plainHead
      have next :=
        ih (offset + byteLength (s.working e.markers)) (copied ++ [s]) plainMore plainRest
      rw [List.flatMap_append, List.flatMap_singleton, List.flatMap_append,
        List.flatMap_singleton] at next
      rw [next, outcomes, kept, byteLength_working]
      cases outcomes e template vars (offset + byteLength (s.text e.markers)) rest <;>
        simp [Except.bind, Except.map]
    rw [List.flatMap_cons]
    cases s with
    | placeholder body =>
      have filled := Engine.fill_placeholder e template vars (copied.flatMap (working e.markers))
        offset plainHead (show (placeholder body).text e.markers = _ from rfl)
        (rest.flatMap (working e.markers))
      cases parsed : Body.parse? body with
      | none =>
        rw [parsed] at filled
        exact filled.trans (wait (by simp [outcome, parsed, bare, text]))
      | some b =>
        have next := ih (offset + byteLength ((placeholder body).text e.markers)) [] (by simp)
          plainRest
        rw [List.flatMap_nil] at next
        rw [parsed, unescape_copied free plainCopied, next] at filled
        refine filled.trans ?_
        simp only [outcomes, outcome, parsed]
        cases e.expand template vars (offset + byteLength e.markers.opening) b with
        | error err => rfl
        | ok value =>
          cases outcomes e template vars (offset + byteLength ((placeholder body).text e.markers))
              rest <;>
            simp [Except.bind, Except.map]
    | literal | openingEscape | closingEscape =>
      rw [Engine.fill_append _ _ _ _ _ (apart_working free plainHead (by simp))]
      exact wait rfl

section Alone

variable {e : Engine} {vars : Vars}

theorem interpolate_textOf (free : e.markers.HasNoStandIn) (segments : List Segment)
    (plain : ∀ s ∈ segments, s.Plain e.markers) :
    e.interpolate (textOf e.markers segments) vars =
      outcomes e (textOf e.markers segments) vars 0 segments := by
  have filled := fill_segments free (textOf e.markers segments) vars 0 [] (by simp) plain
  rw [Engine.interpolate_of_no_standIn e vars (no_standIn_textOf free plain), escape_textOf plain]
  refine filled.trans ?_
  cases outcomes e (textOf e.markers segments) vars 0 segments <;> simp [Except.map]

theorem interpolate_text (free : e.markers.HasNoStandIn) {s : Segment} (plain : s.Plain e.markers) :
    e.interpolate (s.text e.markers) vars = s.outcome e (s.text e.markers) vars 0 := by
  have single : textOf e.markers [s] = s.text e.markers := by simp [textOf]
  rw [← single, interpolate_textOf free [s] (by simpa using plain), single, outcomes]
  cases s.outcome e (s.text e.markers) vars 0 <;> simp [outcomes, Except.bind, Except.map]

theorem outcome_shift (before after : Text) (s : Segment) :
    s.outcome e (before ++ s.text e.markers ++ after) vars (byteLength before) =
      (s.outcome e (s.text e.markers) vars 0).mapError (Error.shift before) := by
  cases s with
  | literal | openingEscape | closingEscape => rfl
  | placeholder body =>
    cases parsed : Body.parse? body with
    | none => simp [outcome, parsed, Except.mapError]
    | some b =>
      simp only [outcome, parsed, Nat.zero_add]
      apply Engine.expand_shift
      have inside := Body.invalidOffset_le parsed
      simp only [text, byteLength_append]
      omega

theorem outcomes_cons (free : e.markers.HasNoStandIn) (before : Text) {s : Segment}
    (plain : s.Plain e.markers) (rest : List Segment) :
    outcomes e (before ++ textOf e.markers (s :: rest)) vars (byteLength before) (s :: rest) =
      ((e.interpolate (s.text e.markers) vars).mapError (Error.shift before)).bind fun t =>
        (outcomes e (before ++ s.text e.markers ++ textOf e.markers rest) vars
          (byteLength (before ++ s.text e.markers)) rest).map (t ++ ·) := by
  have template : before ++ textOf e.markers (s :: rest) =
      before ++ s.text e.markers ++ textOf e.markers rest := by simp [textOf]
  rw [template, outcomes, outcome_shift, interpolate_text free plain, byteLength_append]

theorem outcomes_ok (free : e.markers.HasNoStandIn) (before : Text) {segments : List Segment}
    (plain : ∀ s ∈ segments, s.Plain e.markers) {results : List Text}
    (each : List.Forall₂ (fun s t => e.interpolate (s.text e.markers) vars = .ok t)
      segments results) :
    outcomes e (before ++ textOf e.markers segments) vars (byteLength before) segments =
      .ok results.flatten := by
  induction each generalizing before with
  | nil => rfl
  | @cons s t rest results alone _ ih =>
    have tail := ih (before ++ s.text e.markers) fun r member => plain r (by simp [member])
    rw [outcomes_cons free before (plain s (by simp)), alone]
    simp only [Except.mapError, Except.bind, tail, Except.map, List.flatten_cons]

theorem outcomes_error (free : e.markers.HasNoStandIn) (before : Text)
    {done : List Segment} {s : Segment} {rest : List Segment}
    (plain : ∀ r ∈ done ++ s :: rest, r.Plain e.markers)
    (succeed : ∀ r ∈ done, ∃ t, e.interpolate (r.text e.markers) vars = .ok t) {err : Error}
    (fails : e.interpolate (s.text e.markers) vars = .error err) :
    outcomes e (before ++ textOf e.markers (done ++ s :: rest)) vars (byteLength before)
        (done ++ s :: rest) =
      .error (err.shift (before ++ textOf e.markers done)) := by
  induction done generalizing before with
  | nil =>
    rw [List.nil_append, outcomes_cons free before (plain s (by simp)), fails]
    simp [Except.mapError, Except.bind, textOf]
  | cons r done ih =>
    obtain ⟨t, ok⟩ := succeed r (by simp)
    have plainRest : ∀ q ∈ done ++ s :: rest, q.Plain e.markers := fun q member =>
      plain q (List.mem_cons_of_mem r member)
    have tail := ih (before ++ r.text e.markers) plainRest
      fun q member => succeed q (by simp [member])
    have shifted : before ++ textOf e.markers (r :: done) =
        before ++ r.text e.markers ++ textOf e.markers done := by simp [textOf]
    rw [List.cons_append, outcomes_cons free before (plain r (by simp)), ok, shifted]
    simp only [Except.mapError, Except.bind, tail, Except.map]

theorem all_succeed_or_first_fails (alone : Segment → Except Error Text) (segments : List Segment) :
    (∀ s ∈ segments, ∃ t, alone s = .ok t) ∨
      ∃ done s rest err, segments = done ++ s :: rest ∧ (∀ r ∈ done, ∃ t, alone r = .ok t) ∧
        alone s = .error err := by
  induction segments with
  | nil => exact .inl (by simp)
  | cons s rest ih =>
    cases head : alone s with
    | error err => exact .inr ⟨[], s, rest, err, rfl, by simp, head⟩
    | ok t =>
      rcases ih with succeed | ⟨done, q, after, err, rfl, succeed, fails⟩
      · exact .inl (List.forall_mem_cons.2 ⟨⟨t, head⟩, succeed⟩)
      · exact .inr ⟨s :: done, q, after, err, rfl,
          List.forall_mem_cons.2 ⟨⟨t, head⟩, succeed⟩, fails⟩

end Alone

end Segment

end Placeholder

namespace Engine

open Placeholder Segment

theorem interpolate_segments (e : Engine) (vars : Vars) (free : e.markers.HasNoStandIn)
    (segments : List Segment) (plain : ∀ s ∈ segments, s.Plain e.markers) :
    let alone := fun s : Segment => e.interpolate (s.text e.markers) vars
    let whole := e.interpolate (textOf e.markers segments) vars
    ((∃ t, whole = .ok t) ↔ ∀ s ∈ segments, ∃ t, alone s = .ok t) ∧
      (∀ results, List.Forall₂ (fun s t => alone s = .ok t) segments results →
        whole = .ok results.flatten) ∧
      (∀ done s rest err, segments = done ++ s :: rest → (∀ r ∈ done, ∃ t, alone r = .ok t) →
        alone s = .error err → whole = .error (err.shift (textOf e.markers done))) ∧
      ∀ s ∈ segments, alone s = s.outcome e (s.text e.markers) vars 0 := by
  intro alone whole
  have succeeds (results : List Text)
      (each : List.Forall₂ (fun s t => alone s = .ok t) segments results) :
      whole = .ok results.flatten :=
    (interpolate_textOf free segments plain).trans (outcomes_ok free [] plain each)
  have fails (done : List Segment) (s : Segment) (rest : List Segment) (err : Error)
      (shape : segments = done ++ s :: rest) (succeed : ∀ r ∈ done, ∃ t, alone r = .ok t)
      (failure : alone s = .error err) :
      whole = .error (err.shift (textOf e.markers done)) := by
    subst shape
    exact (interpolate_textOf free _ plain).trans (outcomes_error free [] plain succeed failure)
  refine ⟨⟨?_, ?_⟩, succeeds, fails, ?_⟩
  · rintro ⟨t, ok⟩
    rcases all_succeed_or_first_fails alone segments with
      succeed | ⟨done, s, rest, err, shape, succeed, failure⟩
    · exact succeed
    · exact absurd (ok.symm.trans (fails done s rest err shape succeed failure)) (by simp)
  · intro succeed
    choose! result each using succeed
    exact ⟨_, succeeds (segments.map result)
      (List.forall₂_map_right_iff.2 (List.forall₂_same.2 each))⟩
  · intro s member
    exact interpolate_text free (plain s member)

theorem interpolate_segments_value :
    let e : Engine := ⟨.default, .empty⟩
    let value : Text := "\x7b\x7b x".toList ++ Markers.escaped e.markers.closing ++ ['\x01']
    let segments := [openingEscape, .literal "is ", .placeholder " raw "]
    e.markers.HasNoStandIn ∧ (∀ s ∈ segments, s.Plain e.markers) ∧
      e.interpolate (textOf e.markers segments) [("raw", .str value)] =
        .ok ("\x7b\x7bis ".toList ++ value) := by
  intro e value segments
  have free : e.markers.HasNoStandIn := by decide
  have plain : ∀ s ∈ segments, s.Plain e.markers := by decide
  obtain ⟨-, joined, -, own⟩ := interpolate_segments e [("raw", .str value)] free segments plain
  refine ⟨free, plain, joined ["\x7b\x7b", "is ", value] ?_⟩
  exact .cons (own _ (by simp [segments])) (.cons (own _ (by simp [segments]))
    (.cons (own _ (by simp [segments])) .nil))

end Engine

end Docspec
