import Docspec.Placeholder.Engine
import Docspec.Proofs.Escapes
import Mathlib.Data.List.TakeDrop
import Mathlib.Data.List.TakeWhile

set_option autoImplicit false

namespace Docspec

open Text

namespace Placeholder

/-- An error in a piece of a template, seen from the template that has `before` in front of it. -/
def Error.shift (before : Text) : Error → Error
  | .malformed invalid place => .malformed invalid (place.shift before)
  | err => err

theorem Body.invalidOffset_le {t : Text} {b : Body} (parsed : Body.parse? t = some b) :
    b.invalidOffset ≤ byteLength t := by
  simp only [Body.parse?] at parsed
  split at parsed
  next => cases parsed
  next =>
    split at parsed
    next =>
      cases parsed
      exact Nat.sub_le _ _
    next => cases parsed

end Placeholder

namespace Engine

open Placeholder

section Fill

variable (e : Engine) (template : Text) (vars : Vars) (pending : Text) (offset : Nat)

theorem fill_none {rest : Text} (found : e.markers.nextSpan? rest = none) :
    e.fill template vars pending offset rest = .ok (e.markers.unescape (pending ++ rest)) := by
  rw [fill]
  split
  next => rfl
  next s another => exact absurd (found.symm.trans another) (by simp)

theorem fill_some {rest : Text} {s : Markers.Span} (found : e.markers.nextSpan? rest = some s) :
    e.fill template vars pending offset rest =
      let bodyOffset := offset + byteLength (s.before ++ e.markers.opening)
      let next := bodyOffset + byteLength (s.body ++ e.markers.closing)
      match Body.parse? s.body with
      | none =>
        e.fill template vars
          (pending ++ s.before ++ e.markers.opening ++ s.body ++ e.markers.closing) next s.after
      | some b =>
        (e.expand template vars bodyOffset b).bind fun value =>
          (e.fill template vars [] next s.after).map fun tail =>
            e.markers.unescape (pending ++ s.before) ++ value ++ tail := by
  rw [fill]
  split
  next none => exact absurd (found.symm.trans none) (by simp)
  next s' another =>
    obtain rfl : s = s' := Option.some.inj (found.symm.trans another)
    rfl

theorem interpolate_of_no_standIn {t : Text} (free : ∀ c ∈ t, Markers.isStandIn c = false) :
    e.interpolate t vars = e.fill t vars [] 0 (e.markers.escape t) := by
  have whole : t.span (fun c => !Markers.isStandIn c) = (t, []) := by
    rw [List.span_eq_takeWhile_dropWhile, List.takeWhile_eq_self_iff.2 (by simpa using free),
      List.dropWhile_eq_nil_iff.2 (by simpa using free)]
  simp only [interpolate, whole]

theorem escape_of_no_backtick {t : Text} (unquoted : backtick ∉ t) : e.markers.escape t = t := by
  have escaped := e.markers.escape_append unquoted []
  rw [List.append_nil] at escaped
  exact escaped.trans (List.append_nil t)

theorem unescape_of_no_standIn {t : Text} (free : ∀ c ∈ t, Markers.isStandIn c = false) :
    e.markers.unescape t = t := by
  have unescaped := e.markers.unescape_append free []
  rw [List.append_nil] at unescaped
  exact unescaped.trans (List.append_nil t)

theorem interpolate_of_no_span {t : Text} (unmarked : Markers.Unmarked t)
    (missing : e.markers.nextSpan? t = none) : e.interpolate t vars = .ok t := by
  rw [interpolate_of_no_standIn e vars unmarked.no_standIn,
    escape_of_no_backtick e unmarked.no_backtick, fill_none e t vars [] 0 missing,
    List.nil_append, unescape_of_no_standIn e unmarked.no_standIn]

theorem interpolate_span {body : Text}
    (unmarked : Markers.Unmarked (e.markers.opening ++ body ++ e.markers.closing))
    (found : e.markers.nextSpan? (e.markers.opening ++ body ++ e.markers.closing) =
      some ⟨[], body, []⟩) {b : Body} (parsed : Body.parse? body = some b) :
    e.interpolate (e.markers.opening ++ body ++ e.markers.closing) vars =
      e.expand (e.markers.opening ++ body ++ e.markers.closing) vars
        (byteLength e.markers.opening) b := by
  rw [interpolate_of_no_standIn e vars unmarked.no_standIn,
    escape_of_no_backtick e unmarked.no_backtick, fill_some e _ vars [] 0 found]
  simp only [parsed, List.nil_append, Nat.zero_add, fill_none e _ vars _ _ e.markers.nextSpan?_nil]
  have empty : e.markers.unescape [] = [] := rfl
  rw [empty]
  cases e.expand (e.markers.opening ++ body ++ e.markers.closing) vars
    (byteLength e.markers.opening) b with
  | error err => rfl
  | ok value => exact congrArg Except.ok (List.append_nil value)

theorem fill_append {a : Text} (apart : Apart e.markers.opening a) (rest : Text) :
    e.fill template vars pending offset (a ++ rest) =
      e.fill template vars (pending ++ a) (offset + byteLength a) rest := by
  have moved := e.markers.nextSpan?_append apart rest
  cases found : e.markers.nextSpan? rest with
  | none =>
    rw [found, Option.map_none] at moved
    rw [fill_none e template vars pending offset moved, fill_none e template vars _ _ found,
      List.append_assoc]
  | some s =>
    rw [found, Option.map_some] at moved
    rw [fill_some e template vars pending offset moved, fill_some e template vars _ _ found]
    simp only [List.append_assoc, byteLength_append, Nat.add_assoc]

theorem fill_placeholder {body written : Text} (plain : e.markers.Plain body)
    (shape : written = e.markers.opening ++ body ++ e.markers.closing) (rest : Text) :
    e.fill template vars pending offset (written ++ rest) =
      match Body.parse? body with
      | none => e.fill template vars (pending ++ written) (offset + byteLength written) rest
      | some b =>
        (e.expand template vars (offset + byteLength e.markers.opening) b).bind fun value =>
          (e.fill template vars [] (offset + byteLength written) rest).map fun tail =>
            e.markers.unescape pending ++ value ++ tail := by
  subst shape
  rw [fill_some e template vars pending offset (e.markers.nextSpan?_placeholder plain rest)]
  simp only [List.append_nil, List.nil_append, List.append_assoc, byteLength_append, Nat.add_assoc]

end Fill

section Shift

theorem call_shift (r : Registry) (identifier before : Text) :
    (r.call identifier).mapError (Error.shift before) = r.call identifier := by
  simp only [Registry.call]
  split
  next => rfl
  next f _ => cases f _ <;> rfl

theorem applyFilter_shift (r : Registry) (item value before : Text) :
    (r.applyFilter item value).mapError (Error.shift before) = r.applyFilter item value := by
  simp only [Registry.applyFilter]
  split
  next => rfl
  next f _ => cases f _ _ <;> rfl

theorem applyFilters_shift (r : Registry) (items : List Text) (value before : Text) :
    (r.applyFilters items value).mapError (Error.shift before) = r.applyFilters items value := by
  induction items generalizing value with
  | nil => rfl
  | cons item items ih =>
    have head := applyFilter_shift r item value before
    simp only [Registry.applyFilters]
    cases applied : r.applyFilter item value with
    | error err =>
      rw [applied] at head
      exact head
    | ok next => exact ih next

theorem resolve_shift (e : Engine) (vars : Vars) (identifier before : Text) :
    (e.resolve vars identifier).mapError (Error.shift before) = e.resolve vars identifier := by
  simp only [resolve]
  split
  next => split <;> rfl
  next =>
    split
    next => rfl
    next =>
      split
      next => exact call_shift e.registry identifier before
      next => rfl

theorem expand_shift (e : Engine) (vars : Vars) {b : Body} (before after : Text) {piece : Text}
    {offset : Nat} (inside : offset + b.invalidOffset ≤ byteLength piece) :
    e.expand (before ++ piece ++ after) vars (byteLength before + offset) b =
      (e.expand piece vars offset b).mapError (Error.shift before) := by
  by_cases valid : b.invalid = []
  next =>
    have resolved := resolve_shift e vars b.identifier before
    simp only [expand, valid, ne_eq, not_true_eq_false, if_false]
    cases found : e.resolve vars b.identifier with
    | error err =>
      rw [found] at resolved
      exact resolved.symm
    | ok value => exact (applyFilters_shift e.registry b.filters value before).symm
  next =>
    simp only [expand, ne_eq, valid, not_false_eq_true, if_true, Nat.add_assoc,
      locate_piece before piece after inside]
    rfl

end Shift

end Engine

end Docspec
