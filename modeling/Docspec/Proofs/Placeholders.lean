import Docspec.Proofs.Patterns
import Docspec.Proofs.Copies

set_option autoImplicit false

namespace Docspec

open Text Placeholder Markers

namespace Engine

theorem ne_malformed {r : Except Error Text} (fixed : ∀ before, r.mapError (Error.shift before) = r)
    (invalid : Text) (place : Position) : r ≠ .error (.malformed invalid place) := by
  rintro rfl
  have lower := fixed ['\n']
  have lines : place.line + 1 = place.line := by
    simp only [Except.mapError, Error.shift, Except.error.injEq, Error.malformed.injEq] at lower
    exact congrArg Position.line lower.2
  omega

section Outcome

variable (e : Engine) (template : Text) (vars : Vars)

theorem resolved_ne_malformed (identifier : Text) (items : List Text) (invalid : Text)
    (place : Position) :
    (e.resolve vars identifier).bind (e.registry.applyFilters items) ≠
      .error (.malformed invalid place) := by
  refine ne_malformed (fun before => ?_) invalid place
  have resolved := resolve_shift e vars identifier before
  cases found : e.resolve vars identifier with
  | error err => rwa [found] at resolved
  | ok value => exact applyFilters_shift e.registry items value before

variable {v : Visit}

theorem outcome_copied (other : ¬ StartsLikeName v.body) :
    e.outcome template vars v =
      .ok (e.markers.opening ++ e.markers.unescape v.body ++ e.markers.closing) := by
  rw [outcome, Body.parse?_eq_none other]

theorem outcome_items (p : Body.Parts v.body) {items : List Text} (shape : p.rest = items.flatten)
    (each : ∀ i ∈ items, IsItem i) :
    e.outcome template vars v =
      (e.resolve vars p.identifier).bind
        (e.registry.applyFilters (items.map fun i => trim i.tail)) := by
  obtain ⟨b, parsed, identifier, filters, valid⟩ := p.parse?_items shape each
  rw [outcome, parsed]
  simp only [expand, valid, ne_eq, not_true_eq_false, if_false, identifier, filters]

theorem outcome_fault (p : Body.Parts v.body) {good bad : Text} (shape : p.rest = good ++ bad)
    (fault : Fault good bad) :
    e.outcome template vars v =
      .error (.malformed (trimEnd bad) (locate template
        (byteLength (v.done ++ v.before ++ e.markers.opening ++ p.upTo good)))) := by
  obtain ⟨items, -, -, chain⟩ := Body.filterChain_fault fault
  have first : ∀ c ∈ (good ++ bad).head?, isBlank c = false := shape ▸ p.rest_visible
  have visible := fault.visible first
  have size : byteLength v.body - byteLength bad = byteLength (p.upTo good) := by
    have whole := congrArg byteLength (p.eq_upTo shape)
    rw [byteLength_append] at whole
    omega
  rw [outcome, Body.parse?_parts p, shape, chain]
  simp only [expand, ne_eq, visible, not_false_eq_true, if_true, size]
  rw [byteLength_append _ (p.upTo good)]

end Outcome

theorem interpolate_body (e : Engine) (vars : Vars) {t : Text}
    (bare : ∀ c ∈ t, isStandIn c = false) {done later : List Visit} {v : Visit}
    (visited : e.markers.visits (e.markers.escape t) = done ++ v :: later)
    (written : ∀ c ∈ e.markers.opening ++ v.body ++ e.markers.closing, isStandIn c = false) :
    let outcome := e.outcome t vars v
    (Pattern.bodyGroups v.body).head?.map Pattern.Groups.body = Body.parse? v.body ∧
    (∃ front back, t = front ++ (e.markers.opening ++ v.body ++ e.markers.closing) ++ back ∧
        e.markers.escape front = v.done ++ v.before ∧ e.markers.escape back = v.after) ∧
      e.interpolate t vars =
        (done.mapM (e.piece t vars)).bind (fun front => outcome.bind fun value =>
          (later.mapM (e.piece t vars)).map fun back =>
            front.flatten ++ (e.markers.unescape v.before ++ value) ++ back.flatten ++
              e.markers.unescape (leftOver (e.markers.escape t) (done ++ v :: later))) ∧
      (¬ StartsLikeName v.body →
        outcome = .ok (e.markers.opening ++ v.body ++ e.markers.closing)) ∧
      (StartsLikeName v.body → ∃ p : Body.Parts v.body, (∀ q, q = p) ∧
        (AreItems p.rest ↔ ∀ invalid place, outcome ≠ .error (.malformed invalid place)) ∧
        (∀ items : List Text, p.rest = items.flatten → (∀ i ∈ items, IsItem i) →
          outcome = (e.resolve vars p.identifier).bind
            (e.registry.applyFilters (items.map fun i => trim i.tail))) ∧
        (¬ AreItems p.rest → ∃ good bad place, p.rest = good ++ bad ∧ Fault good bad ∧
          trimEnd bad ≠ [] ∧ outcome = .error (.malformed (trimEnd bad) place) ∧
          ((∀ d ∈ done, ∃ value, e.outcome t vars d = .ok value) →
            e.interpolate t vars = .error (.malformed (trimEnd bad) place)))) := by
  intro outcome
  have markers := List.forall_mem_append.1 written
  have inside := List.forall_mem_append.1 markers.1
  have free : e.markers.HasNoStandIn := List.forall_mem_append.2 ⟨inside.1, markers.2⟩
  have member : v ∈ e.markers.visits (e.markers.escape t) := by simp [visited]
  have whole := visitsFrom_whole member
  refine ⟨Pattern.bodyGroups_parse v.body, ?_, e.interpolate_visited vars free bare visited,
    fun other => ?_, fun starts => ?_⟩
  · obtain ⟨front, body, back, shape, before, within, after⟩ := escape_span free whole.symm
    rw [eq_of_escape within inside.2] at shape
    exact ⟨front, back, by simp [shape], before, after⟩
  · have kept := e.outcome_copied t vars other
    rwa [e.unescape_of_no_standIn inside.2] at kept
  · obtain ⟨p⟩ := starts.parts
    have faulty {good bad : Text} (shape : p.rest = good ++ bad) (fault : Fault good bad) :=
      e.outcome_fault t vars p shape fault
    refine ⟨p, fun q => q.unique p, ⟨?_, ?_⟩, fun items => e.outcome_items t vars p,
      fun other => ?_⟩
    · rintro ⟨items, shape, each⟩ invalid place
      rw [show outcome = _ from e.outcome_items t vars p shape each]
      exact e.resolved_ne_malformed vars _ _ invalid place
    · intro sound
      by_contra other
      obtain ⟨good, bad, shape, fault⟩ := exists_fault other
      exact sound _ _ (faulty shape fault)
    · obtain ⟨good, bad, shape, fault⟩ := exists_fault other
      have fails := faulty shape fault
      have visible := fault.visible (shape ▸ p.rest_visible)
      exact ⟨good, bad, _, shape, fault, visible, fails, fun succeed =>
        (e.interpolate_eq_error_iff vars free bare).2 ⟨done, v, later, visited, succeed, fails⟩⟩

def faultyTemplate : Text := "\x60\x7b\x7b\x60 \x7b\x7b a | upper | 9 \x7d\x7d"

def faultyVisit : Visit :=
  { before := "\x01\x01\x01\x01 ", body := " a | upper | 9 ", after := [], done := [] }

theorem visits_faultyTemplate :
    Markers.default.visits (Markers.default.escape faultyTemplate) = [faultyVisit] := by
  have found : Markers.default.nextSpan? (Markers.default.escape faultyTemplate) =
      some faultyVisit.toSpan := rfl
  have last : Markers.default.nextSpan? faultyVisit.after = none := rfl
  rw [visits, visitsFrom_some found, visitsFrom_none last]
  rfl

theorem interpolate_body_fault :
    (∀ c ∈ faultyTemplate, isStandIn c = false) ∧
      (∀ c ∈ Markers.default.opening ++ faultyVisit.body ++ Markers.default.closing,
        isStandIn c = false) ∧
      StartsLikeName faultyVisit.body ∧
      ∃ place, (Engine.builtin ⟨0, 0⟩).interpolate faultyTemplate [] =
        .error (.malformed "| 9" place) := by
  have bare : ∀ c ∈ faultyTemplate, isStandIn c = false := forall_of_any (by decide)
  have written : ∀ c ∈ Markers.default.opening ++ faultyVisit.body ++ Markers.default.closing,
      isStandIn c = false := forall_of_any (by decide)
  have starts : StartsLikeName faultyVisit.body := ⟨'a', " | upper | 9 ", by decide, by decide⟩
  have visited : Markers.default.visits (Markers.default.escape faultyTemplate) =
      [] ++ faultyVisit :: [] := visits_faultyTemplate
  obtain ⟨-, -, -, -, named⟩ := interpolate_body (Engine.builtin ⟨0, 0⟩) [] bare visited written
  obtain ⟨p, -, -, -, faulty⟩ := named starts
  have rest : p.rest = "| upper | 9 " := by
    obtain ⟨-, -, read, -, rest⟩ := p.read
    rw [← rest, ← (Prod.mk.inj read).2]
    decide
  have other : ¬ AreItems p.rest := by
    rw [rest]
    decide
  obtain ⟨good, bad, place, shape, fault, -, -, fails⟩ := faulty other
  obtain ⟨items, -, -, chain⟩ := Body.filterChain_fault fault
  obtain rfl : bad = "| 9 " := by
    rw [← shape, rest] at chain
    exact (Prod.mk.inj chain).2.symm
  exact ⟨bare, written, starts, place, fails (by simp)⟩

end Engine

end Docspec
