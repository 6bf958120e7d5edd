import Docspec.Proofs.Placeholders
import Docspec.Proofs.Restoring

set_option autoImplicit false

namespace Docspec

open Text Placeholder

namespace Markers

structure Cut where
  before : Text
  inside : Text

def Cut.text (m : Markers) (c : Cut) : Text :=
  c.before ++ (m.opening ++ (c.inside ++ m.closing))

/-- The placeholders of a template and the text behind the last. A placeholder may be any text
between markers. -/
inductive Cutting (m : Markers) : Text → List Cut → Text → Prop
  | last {t : Text} : m.nextSpan? (m.escape t) = none → Cutting m t [] t
  | cut {c : Cut} {rest last : Text} {cuts : List Cut} :
    m.nextSpan? (m.escape (c.text m ++ rest)) =
      some ⟨m.escape c.before, m.escape c.inside, m.escape rest⟩ →
    Cutting m rest cuts last → Cutting m (c.text m ++ rest) (c :: cuts) last

inductive Within (m : Markers) (marker : Text) : List Cut → Text → Text → Prop
  | before {c : Cut} {cuts : List Cut} {last a b : Text} : m.EscapeAt c.before a marker b →
    Within m marker (c :: cuts) last a
  | inside {c : Cut} {cuts : List Cut} {last a b : Text} : m.EscapeAt c.inside a marker b →
    Within m marker (c :: cuts) last (c.before ++ m.opening ++ a)
  | later {c : Cut} {cuts : List Cut} {last a : Text} : Within m marker cuts last a →
    Within m marker (c :: cuts) last (c.text m ++ a)
  | last {last a b : Text} : m.EscapeAt last a marker b → Within m marker [] last a

def assemble (m : Markers) (cuts : List Cut) (last : Text) (values : List Text) : Text :=
  (List.zipWith (fun c value => m.restored c.before ++ value) cuts values).flatten ++
    m.restored last

section Cuts

variable {m : Markers} {t last : Text} {cuts : List Cut}

theorem exists_cutting (free : m.HasNoStandIn) (t : Text) : ∃ cuts last, m.Cutting t cuts last := by
  induction size : t.length using Nat.strongRecOn generalizing t with
  | ind n ih =>
    cases found : m.nextSpan? (m.escape t) with
    | none => exact ⟨[], t, .last found⟩
    | some s =>
      obtain ⟨front, inside, back, shape, before, within, after⟩ :=
        escape_span free (eq_append_of_nextSpan? found)
      have whole : t = (Cut.mk front inside).text m ++ back := by simp [shape, Cut.text]
      have positive := List.length_pos_iff.2 m.opening_ne_nil
      have shorter : back.length < n := by
        rw [← size, shape]
        simp only [List.length_append]
        omega
      obtain ⟨cuts, last, cutting⟩ := ih back.length shorter back rfl
      rw [whole] at found ⊢
      exact ⟨_, last, .cut (by rw [found, before, within, after]) cutting⟩

theorem Cutting.whole (cutting : m.Cutting t cuts last) :
    t = cuts.flatMap (Cut.text m) ++ last := by
  induction cutting with
  | last _ => rfl
  | cut _ _ ih => rw [List.flatMap_cons, List.append_assoc, ← ih]

theorem Cutting.mem_cut (cutting : m.Cutting t cuts last) {c : Cut} (member : c ∈ cuts) {d : Char}
    (inside : d ∈ c.text m) : d ∈ t := by
  rw [cutting.whole]
  exact List.mem_append_left _ (List.mem_flatMap.2 ⟨c, member, inside⟩)

theorem escape_eq_of_append {p q copy : Text} (shape : m.escape (p ++ q) = m.escape p ++ copy)
    (first : ∀ c ∈ copy.head?, isStandIn c = false) : m.escape q = copy := by
  obtain ⟨p', q', whole, left, right⟩ := escape_split shape (.inr first)
  have size : byteLength p = byteLength p' := by
    rw [← byteLength_escape m p, ← left, byteLength_escape]
  obtain ⟨-, rfl⟩ := eq_of_byteLength whole size
  exact right

theorem EscapeAt.behind {p q a marker b : Text} (found : m.EscapeAt (p ++ q) a marker b)
    (absent : backtick ∉ p) : ∃ x, m.EscapeAt q x marker b ∧ a = p ++ x := by
  have own : m.escape p = p := by
    have copy := m.escape_append absent []
    rw [List.append_nil] at copy
    exact copy.trans (List.append_nil p)
  rcases found.split (by rw [m.escape_append absent, own]) with ⟨y, inside, -⟩ | later
  · exact absurd (by simp [inside.whole, escaped]) absent
  · exact later

theorem Cutting.within (free : m.HasNoStandIn) (cutting : m.Cutting t cuts last)
    {a marker b : Text} (found : m.EscapeAt t a marker b) : m.Within marker cuts last a := by
  obtain ⟨opens, -⟩ := List.forall_mem_append.1 free
  induction cutting generalizing a with
  | last _ => exact .last found
  | @cut c rest last cuts spanned _ ih =>
    have copy := eq_append_of_nextSpan? spanned
    simp only [Cut.text, List.append_assoc] at copy found
    have opened : m.escape (m.opening ++ (c.inside ++ (m.closing ++ rest))) =
        m.opening ++ (m.escape c.inside ++ (m.closing ++ m.escape rest)) := by
      refine escape_eq_of_append copy fun d first => opens d ?_
      rw [List.head?_append_of_ne_nil _ m.opening_ne_nil] at first
      exact List.mem_of_mem_head? first
    have inner : m.escape (c.inside ++ (m.closing ++ rest)) =
        m.escape c.inside ++ m.escape (m.closing ++ rest) := by
      rw [m.escape_append m.no_backtick.1] at opened
      rw [m.escape_append m.no_backtick.2]
      exact List.append_cancel_left opened
    rcases found.split (copy.trans (by rw [opened])) with ⟨y, own, -⟩ | ⟨x₁, found₁, rfl⟩
    · exact .before own
    obtain ⟨x₂, found₂, rfl⟩ := found₁.behind m.no_backtick.1
    rcases found₂.split inner with ⟨y, own, -⟩ | ⟨x₃, found₃, rfl⟩
    · rw [← List.append_assoc]
      exact .inside own
    obtain ⟨x₄, found₄, rfl⟩ := found₃.behind m.no_backtick.2
    have later := Within.later (c := c) (ih found₄)
    simpa only [Cut.text, List.append_assoc] using later

end Cuts

end Markers

namespace Engine

open Markers

/-- A span of the working copy is that of a placeholder of the template. A span that is none in
fact comes out as it is, but for the markers escaped inside. -/
def Shows (e : Engine) (template : Text) (vars : Vars) (v : Visit) (c : Cut) : Prop :=
  e.markers.escape c.before = v.before ∧ e.markers.escape c.inside = v.body ∧
    (¬ StartsLikeName v.body → e.outcome template vars v =
      .ok (e.markers.opening ++ e.markers.restored c.inside ++ e.markers.closing))

section Filled

variable {e : Engine} (template : Text) (vars : Vars)

theorem shows_visits {t last : Text} {cuts : List Cut} (cutting : e.markers.Cutting t cuts last)
    (bare : ∀ c ∈ t, isStandIn c = false) (done : Text) :
    List.Forall₂ (e.Shows template vars) (e.markers.visitsFrom done (e.markers.escape t)) cuts ∧
      e.markers.unescape (leftOver (e.markers.escape t)
        (e.markers.visitsFrom done (e.markers.escape t))) = e.markers.restored last := by
  induction cutting generalizing done with
  | last missing =>
    rw [visitsFrom_none missing]
    exact ⟨.nil, unescape_escape bare⟩
  | @cut c rest last cuts found _ ih =>
    obtain ⟨own, others⟩ := List.forall_mem_append.1 bare
    have inside : ∀ d ∈ c.inside, isStandIn d = false := fun d member =>
      own d (by simp [Cut.text, member])
    rw [visitsFrom_some found]
    obtain ⟨paired, left⟩ := ih others _
    refine ⟨.cons ⟨rfl, rfl, fun other => ?_⟩ paired, left⟩
    rw [e.outcome_copied template vars other, unescape_escape inside]

theorem mapM_piece {visits : List Visit} {cuts : List Cut}
    (paired : List.Forall₂ (e.Shows template vars) visits cuts)
    (bare : ∀ c ∈ cuts, ∀ d ∈ c.before, isStandIn d = false) :
    visits.mapM (e.piece template vars) = (visits.mapM (e.outcome template vars)).map
      (List.zipWith (fun c value => e.markers.restored c.before ++ value) cuts) := by
  induction paired with
  | nil => rfl
  | @cons v c visits cuts shows _ ih =>
    obtain ⟨own, others⟩ := List.forall_mem_cons.1 bare
    have literal : e.markers.unescape v.before = e.markers.restored c.before := by
      rw [← shows.1, unescape_escape own]
    rw [List.mapM_cons, List.mapM_cons, piece, literal, ih others]
    cases e.outcome template vars v with
    | error err => rfl
    | ok value => cases visits.mapM (e.outcome template vars) <;> rfl

theorem interpolate_cutting (free : e.markers.HasNoStandIn) {t last : Text} {cuts : List Cut}
    (cutting : e.markers.Cutting t cuts last) (bare : ∀ c ∈ t, isStandIn c = false) :
    List.Forall₂ (e.Shows t vars) (e.markers.visits (e.markers.escape t)) cuts ∧
      e.interpolate t vars = ((e.markers.visits (e.markers.escape t)).mapM (e.outcome t vars)).map
        (e.markers.assemble cuts last) := by
  obtain ⟨paired, left⟩ := shows_visits t vars cutting bare []
  rw [← visits] at paired left
  have literal : ∀ c ∈ cuts, ∀ d ∈ c.before, isStandIn d = false := fun c member d own =>
    bare d (cutting.mem_cut member (by simp [Cut.text, own]))
  rw [e.interpolate_visits vars free bare, mapM_piece t vars paired literal, left]
  refine ⟨paired, ?_⟩
  cases (e.markers.visits (e.markers.escape t)).mapM (e.outcome t vars) <;> rfl

end Filled

theorem interpolate_escapes (e : Engine) (vars : Vars) {t : Text}
    (bare : ∀ c ∈ t, isStandIn c = false) :
    ((∃ a marker b, e.markers.EscapeAt t a marker b) ↔ e.markers.HasEscape t) ∧
      (∀ p a marker b, e.markers.EscapeAt p a marker b → e.markers.IsMarker marker ∧
        p = a ++ escaped marker ++ b ∧
        e.markers.restored p = e.markers.restored a ++ marker ++ e.markers.restored b) ∧
      (e.markers.nextSpan? (e.markers.escape t) = none →
        e.interpolate t vars = .ok (e.markers.restored t)) ∧
      (e.markers.HasNoStandIn → ∃ cuts last, e.markers.Cutting t cuts last ∧
        t = cuts.flatMap (Cut.text e.markers) ++ last ∧
        (∀ a marker b, e.markers.EscapeAt t a marker b → e.markers.Within marker cuts last a) ∧
        List.Forall₂ (e.Shows t vars) (e.markers.visits (e.markers.escape t)) cuts ∧
        e.interpolate t vars = ((e.markers.visits (e.markers.escape t)).mapM (e.outcome t vars)).map
          (e.markers.assemble cuts last)) := by
  refine ⟨exists_escapeAt_iff, fun p a marker b found => ⟨found.isMarker, found.whole,
    found.restored_eq⟩, fun missing => ?_, fun free => ?_⟩
  · rw [interpolate_of_no_standIn e vars bare, fill_none e t vars [] 0 missing, List.nil_append,
      unescape_escape bare]
  · obtain ⟨cuts, last, cutting⟩ := exists_cutting free t
    exact ⟨cuts, last, cutting, cutting.whole, fun a marker b => cutting.within free,
      interpolate_cutting vars free cutting bare⟩

theorem interpolate_escapes_beside :
    let e := Engine.builtin ⟨0, 0⟩
    let vars : Vars := [("s", .str "v")]
    let t : Text := "\x60\x7b\x7b\x60 \x7b\x7b s \x7d\x7d"
    let u : Text := "\x60\x7b\x7b\x60 s \x7d\x7d"
    e.markers.HasNoStandIn ∧ (∀ c ∈ t, isStandIn c = false) ∧ (∀ c ∈ u, isStandIn c = false) ∧
      e.markers.nextSpan? (e.markers.escape u) = none ∧
      e.interpolate u vars = .ok "\x7b\x7b s \x7d\x7d" ∧
      ∃ cuts last, e.markers.Cutting t cuts last ∧ e.markers.Within e.markers.opening cuts last [] ∧
        e.interpolate t vars = .ok (e.markers.assemble cuts last ["v"]) := by
  intro e vars t u
  have free : e.markers.HasNoStandIn := default_no_standIn
  have bare : ∀ c ∈ t, isStandIn c = false := forall_of_any (by decide)
  have plain : ∀ c ∈ u, isStandIn c = false := forall_of_any (by decide)
  have spanless : e.markers.nextSpan? (e.markers.escape u) = none := rfl
  obtain ⟨-, -, literal, -⟩ := interpolate_escapes e vars plain
  obtain ⟨-, -, -, cut⟩ := interpolate_escapes e vars bare
  obtain ⟨cuts, last, cutting, -, within, -, result⟩ := cut free
  refine ⟨free, bare, plain, spanless, literal spanless, cuts, last, cutting,
    within [] _ " \x7b\x7b s \x7d\x7d" (.here (.inl rfl)), ?_⟩
  have found : e.markers.nextSpan? (e.markers.escape t) =
      some ⟨"\x01\x01\x01\x01 ", " s ", []⟩ := rfl
  have missing : e.markers.nextSpan? [] = none := rfl
  rw [result, visits, visitsFrom_some found, visitsFrom_none missing]
  rfl

-- A pair with a stand-in of its own is taken, and what is escaped then opens a placeholder.
example : (Markers.ofPair ['\x02'] ['x']).toOption.bind
    (fun m => m.nextSpan? (m.escape "\x60x\x60 n x")) = some ⟨"\x02\x02", " n ", []⟩ := by
  rfl

end Engine

end Docspec
