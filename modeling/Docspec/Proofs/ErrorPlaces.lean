import Docspec.Proofs.Placeholders

set_option autoImplicit false

namespace Docspec

open Text Placeholder Markers

def Text.Position.behind (t : Text) : Position :=
  ⟨1 + t.count '\n', 1 + (t.reverse.takeWhile (· ≠ '\n')).length⟩

theorem Text.Position.advanceBy_behind (t : Text) : start.advanceBy t = behind t := by
  rw [advanceBy_start]
  simp only [shift, start, behind, if_true]

namespace Placeholder

theorem isStandIn_of_blank {c : Char} (blank : isBlank c = true) : isStandIn c = false := by
  rw [← Bool.not_eq_true]
  intro standIn
  rcases Bool.or_eq_true_iff.1 standIn with same | same
  · rw [eq_of_beq same] at blank
    cases blank
  · rw [eq_of_beq same] at blank
    cases blank

theorem isStandIn_of_isVariableChar {c : Char} (taken : isVariableChar c = true) :
    isStandIn c = false := by
  simp [isStandIn, ne_of_isVariableChar taken (d := openingStandIn) (by decide),
    ne_of_isVariableChar taken (d := closingStandIn) (by decide)]

theorem last_identifier {t identifier after : Text} (identifies : Identifies t identifier after) :
    ∀ c ∈ identifier.getLast?, isStandIn c = false := by
  intro c last
  cases identifies with
  | call _ isCall =>
    obtain rfl : ')' = c := Option.some.inj (isCall.getLast?.symm.trans last)
    rfl
  | name _ _ named _ =>
    exact isStandIn_of_isVariableChar (name_chars named c (List.mem_of_mem_getLast? last))

-- A fault is never inside a run of stand-ins: it is behind the identifier or blanks, or is a bar.
theorem fault_apart {body good bad : Text} (p : Body.Parts body) (fault : Fault good bad) :
    (∀ c ∈ (p.upTo good).getLast?, isStandIn c = false) ∨ ∀ c ∈ bad.head?, isStandIn c = false := by
  cases fault with
  | bar _ _ _ =>
    refine .inr fun c first => ?_
    obtain rfl : '|' = c := Option.some.inj first
    rfl
  | start _ _ =>
    refine .inl fun c last => ?_
    rw [Body.Parts.upTo, List.append_nil] at last
    by_cases gap : p.gap = []
    next =>
      obtain ⟨⟨d, rest, shape, -⟩, -⟩ := identifier_ends p.identifies
      rw [gap, List.append_nil, List.getLast?_append_of_ne_nil _ (by simp [shape])] at last
      exact last_identifier p.identifies c last
    next =>
      rw [List.getLast?_append_of_ne_nil _ gap] at last
      exact isStandIn_of_blank (p.gap_blank c (List.mem_of_mem_getLast? last))

/-- A placeholder of a template, cut where its text stops being one, and its working copy. -/
structure FaultIn (m : Markers) (t : Text) (v : Visit) (front lead bad back : Text) : Prop where
  whole : t = front ++ m.opening ++ lead ++ bad ++ m.closing ++ back
  front_copy : m.escape front = v.done ++ v.before
  body_copy : m.escape lead ++ m.escape bad = v.body
  back_copy : m.escape back = v.after
  faulty : ∃ p : Body.Parts v.body, ∃ good, m.escape lead = p.upTo good ∧
    p.rest = good ++ m.escape bad ∧ Fault good (m.escape bad)

end Placeholder

namespace Engine

theorem fault_of_malformed {e : Engine} {t : Text} {vars : Vars} {v : Visit} {invalid : Text}
    {place : Position} (fails : e.outcome t vars v = .error (.malformed invalid place)) :
    ∃ p : Body.Parts v.body, ∃ good bad, p.rest = good ++ bad ∧ Fault good bad := by
  by_cases starts : StartsLikeName v.body
  next =>
    obtain ⟨p⟩ := starts.parts
    refine ⟨p, exists_fault ?_⟩
    rintro ⟨items, shape, each⟩
    rw [e.outcome_items t vars p shape each] at fails
    exact e.resolved_ne_malformed vars _ _ _ _ fails
  next =>
    rw [e.outcome_copied t vars starts] at fails
    cases fails

theorem fault_in_template {e : Engine} {t : Text} {vars : Vars} (free : e.markers.HasNoStandIn)
    {v : Visit} (member : v ∈ e.markers.visits (e.markers.escape t)) {invalid : Text}
    {place : Position} (fails : e.outcome t vars v = .error (.malformed invalid place)) :
    ∃ front lead bad back, FaultIn e.markers t v front lead bad back ∧
      invalid = trimEnd (e.markers.escape bad) ∧ invalid ≠ [] ∧
      place = .behind (front ++ e.markers.opening ++ lead) := by
  obtain ⟨p, good, copy, shape, fault⟩ := fault_of_malformed fails
  obtain ⟨front, inside, back, whole, before, body, after⟩ :=
    escape_span free (visitsFrom_whole member).symm
  have cut : e.markers.escape inside = p.upTo good ++ copy := body.trans (p.eq_upTo shape)
  obtain ⟨lead, bad, rfl, left, right⟩ := escape_split cut (fault_apart p fault)
  have placed := e.outcome_fault t vars p shape fault
  have size : byteLength (v.done ++ v.before ++ e.markers.opening ++ p.upTo good) =
      byteLength (front ++ e.markers.opening ++ lead) := by
    rw [← before, ← left]
    simp only [byteLength_append, byteLength_escape]
  have behind : locate t (byteLength (front ++ e.markers.opening ++ lead)) =
      .behind (front ++ e.markers.opening ++ lead) := by
    have split : t = front ++ e.markers.opening ++ lead ++ (bad ++ e.markers.closing ++ back) := by
      simp [whole]
    rw [split, locate_append, Position.advanceBy_behind]
  rw [size, behind, fails] at placed
  obtain ⟨rfl, rfl⟩ := Error.malformed.inj (Except.error.inj placed)
  subst right
  refine ⟨front, lead, bad, back, ⟨by simp [whole], before, ?_, after, p, good, left, shape, fault⟩,
    rfl, fault.visible (shape ▸ p.rest_visible), rfl⟩
  rw [left, ← cut, body]

theorem interpolate_standIn_place (e : Engine) (vars : Vars) {before after : Text} {c : Char}
    (free : ∀ d ∈ before, isStandIn d = false) (standIn : isStandIn c = true) :
    e.interpolate (before ++ c :: after) vars =
      .error (.malformed (standInCode c) (.behind before)) := by
  have passed : ∀ d ∈ before, (!isStandIn d) = true := fun d member => by simp [free d member]
  have found : (before ++ c :: after).span (fun d => !isStandIn d) = (before, c :: after) := by
    rw [List.span_eq_takeWhile_dropWhile, (longest passed (by simpa using standIn)).1,
      (longest passed (by simpa using standIn)).2]
  rw [interpolate, found]
  simp only [locate_append, Position.advanceBy_behind]

theorem interpolate_malformed_place (e : Engine) (vars : Vars) (t : Text) :
    (e.markers.HasNoStandIn → (∀ c ∈ t, isStandIn c = false) → ∀ invalid place,
        e.interpolate t vars = .error (.malformed invalid place) →
        ∃ done v later front lead bad back,
          e.markers.visits (e.markers.escape t) = done ++ v :: later ∧
            (∀ d ∈ done, ∃ value, e.outcome t vars d = .ok value) ∧
            FaultIn e.markers t v front lead bad back ∧
            invalid = trimEnd (e.markers.escape bad) ∧ invalid ≠ [] ∧
            place = .behind (front ++ e.markers.opening ++ lead)) ∧
      ∀ before c after, t = before ++ c :: after → (∀ d ∈ before, isStandIn d = false) →
        isStandIn c = true →
        e.interpolate t vars = .error (.malformed (standInCode c) (.behind before)) := by
  constructor
  · intro free bare invalid place fails
    obtain ⟨done, v, later, visited, succeed, own⟩ :=
      (e.interpolate_eq_error_iff vars free bare).1 fails
    have member : v ∈ e.markers.visits (e.markers.escape t) := by simp [visited]
    obtain ⟨front, lead, bad, back, fault⟩ := fault_in_template free member own
    exact ⟨done, v, later, front, lead, bad, back, visited, succeed, fault⟩
  · rintro before c after rfl free standIn
    exact e.interpolate_standIn_place vars free standIn

theorem interpolate_malformed_place_lines :
    let e : Engine := ⟨⟨"<\n", ">", by decide, by decide, by decide, by decide⟩, .empty⟩
    let t : Text := "\x60<\n\x60é <\nx><\n a b>"
    e.markers.HasNoStandIn ∧ (∀ c ∈ t, isStandIn c = false) ∧
      e.interpolate t [] = .error (.malformed "b" ⟨4, 4⟩) ∧
      (∃ v front lead bad back, FaultIn e.markers t v front lead bad back ∧
        Position.mk 4 4 = .behind (front ++ e.markers.opening ++ lead)) ∧
      e.interpolate (t ++ ['\x02']) [] = .error (.malformed "\\u\x7b2\x7d" ⟨4, 6⟩) := by
  intro e t
  let first : Visit :=
    { before := "\x01\x01\x01\x01é ", body := ['x'], after := "<\n a b>", done := [] }
  let second : Visit :=
    { before := [], body := " a b", after := [], done := "\x01\x01\x01\x01é <\nx>" }
  have free : e.markers.HasNoStandIn := by decide
  have bare : ∀ c ∈ t, isStandIn c = false := forall_of_any (by decide)
  have visited : e.markers.visits (e.markers.escape t) = [first] ++ second :: [] := by
    have found : e.markers.nextSpan? (e.markers.escape t) = some first.toSpan := rfl
    have next : e.markers.nextSpan? first.after = some second.toSpan := rfl
    have last : e.markers.nextSpan? second.after = none := rfl
    rw [visits, visitsFrom_some found, visitsFrom_some next, visitsFrom_none last]
    rfl
  have succeed : ∀ d ∈ [first], ∃ value, e.outcome t [] d = .ok value := by
    simpa using ⟨[], rfl⟩
  have own : e.outcome t [] second = .error (.malformed "b" ⟨4, 4⟩) := rfl
  have fails := (e.interpolate_eq_error_iff [] free bare).2 ⟨_, second, [], visited, succeed, own⟩
  obtain ⟨located, -⟩ := interpolate_malformed_place e [] t
  obtain ⟨-, v, -, front, lead, bad, back, -, -, fault, -, -, place⟩ :=
    located free bare _ _ fails
  obtain ⟨-, reserved⟩ := interpolate_malformed_place e [] (t ++ ['\x02'])
  exact ⟨free, bare, fails, ⟨v, front, lead, bad, back, fault, place⟩,
    reserved t '\x02' [] rfl bare rfl⟩

end Engine

end Docspec
