import Docspec.Proofs.Cuttings
import Docspec.Proofs.ErrorPlaces

set_option autoImplicit false

namespace Docspec

open Text

namespace Placeholder

def isSpelling (c : Char) : Bool := isNameChar c || isAsciiUpper c

theorem toNat_of_isSpelling {c : Char} (spelling : isSpelling c = true) :
    45 ≤ c.toNat ∧ c.toNat ≤ 122 ∧ c.toNat ≠ 46 := by
  rcases Bool.or_eq_true_iff.1 spelling with named | upper
  · have code := toNat_of_isVariableChar (c := c) (by simp [isVariableChar, named])
    have dotless : c.toNat ≠ 46 := by
      intro same
      obtain rfl : c = '.' := Char.toNat_inj.1 same
      cases named
    omega
  · simp only [isAsciiUpper, Bool.and_eq_true, decide_eq_true_eq, Char.le_def,
      UInt32.le_iff_toNat_le] at upper
    change 65 ≤ c.toNat ∧ c.toNat ≤ 90 at upper
    omega

section Spelling

variable {c : Char} (spelling : isSpelling c = true)
include spelling

theorem isBlank_of_isSpelling : isBlank c = false := by
  have code := toNat_of_isSpelling spelling
  simp only [isBlank, Bool.or_eq_false_iff, Bool.and_eq_false_iff, decide_eq_false_iff_not,
    beq_eq_false_iff_ne]
  omega

theorem utf8Size_of_isSpelling : c.utf8Size = 1 := by
  have code := toNat_of_isSpelling spelling
  rw [Char.utf8Size_eq_one_iff]
  change c.toNat ≤ 127
  omega

theorem ne_of_isSpelling {d : Char} (other : isSpelling d = false) : c ≠ d := by
  rintro rfl
  simp [spelling] at other

theorem isStandIn_of_isSpelling : Markers.isStandIn c = false := by
  simp [Markers.isStandIn, ne_of_isSpelling spelling (d := Markers.openingStandIn) (by decide),
    ne_of_isSpelling spelling (d := Markers.closingStandIn) (by decide)]

end Spelling

end Placeholder

namespace Text

open Placeholder

def blur (c : Char) : Char := if isSpelling c then 'x' else c

def blurred (t : Text) : Text := t.map blur

def Sharp (t : Text) : Prop := ∀ c ∈ t, isSpelling c = false

theorem eq_blur_iff {c d : Char} (sharp : isSpelling d = false) : d = blur c ↔ d = c := by
  rw [blur]
  split
  next spelling =>
    refine iff_of_false ?_ (ne_of_isSpelling spelling sharp).symm
    rintro rfl
    cases sharp
  next => rfl

theorem blurred_append (a b : Text) : blurred (a ++ b) = blurred a ++ blurred b := List.map_append

theorem length_blurred (t : Text) : (blurred t).length = t.length := List.length_map blur

theorem utf8Size_blur (c : Char) : (blur c).utf8Size = c.utf8Size := by
  rw [blur]
  split
  next spelling => rw [utf8Size_of_isSpelling spelling]; rfl
  next => rfl

theorem isStandIn_blur (c : Char) : Markers.isStandIn (blur c) = Markers.isStandIn c := by
  rw [blur]
  split
  next spelling => rw [isStandIn_of_isSpelling spelling]; rfl
  next => rfl

theorem byteLength_blurred (t : Text) : byteLength (blurred t) = byteLength t := by
  induction t with
  | nil => rfl
  | cons c t ih =>
    change (blur c).utf8Size + byteLength (blurred t) = _
    rw [utf8Size_blur, ih, byteLength_cons]

theorem locate_blurred (t : Text) (n : Nat) : locate (blurred t) n = locate t n := by
  have walk (p : Position) : p.atOffset n (blurred t) = p.atOffset n t := by
    induction t generalizing n p with
    | nil => rfl
    | cons c t ih =>
      cases n with
      | zero => rfl
      | succ n =>
        have step : p.advance (blur c) = p.advance c := by
          simp only [Position.advance, eq_comm, eq_blur_iff (d := '\n') rfl]
        change (p.advance (blur c)).atOffset (n + 1 - (blur c).utf8Size) (blurred t) = _
        rw [step, utf8Size_blur, ih]
        rfl
  exact walk _

theorem Position.behind_blurred (t : Text) : behind t.blurred = behind t := by
  have whole (u : Text) : locate u (byteLength u) = behind u := by
    rw [← advanceBy_behind, ← locate_append u [], List.append_nil]
  rw [← whole, ← whole, locate_blurred, byteLength_blurred]

section Search

variable {pat : Text} (sharp : Sharp pat)
include sharp

theorem stripFront?_blurred (t : Text) :
    stripFront? pat (blurred t) = (stripFront? pat t).map blurred := by
  induction pat generalizing t with
  | nil => rfl
  | cons p pat ih =>
    obtain ⟨first, others⟩ := List.forall_mem_cons.1 sharp
    cases t with
    | nil => rfl
    | cons c t =>
      change (if p = blur c then stripFront? pat (blurred t) else none) = _
      rw [stripFront?, ih others]
      simp only [eq_blur_iff first]
      split <;> rfl

theorem cut?_blurred (t : Text) :
    cut? pat (blurred t) = (cut? pat t).map (Prod.map blurred blurred) := by
  induction t with
  | nil =>
    change cut? pat [] = _
    rw [cut?]
    split <;> rfl
  | cons c t ih =>
    have front := stripFront?_blurred sharp (c :: t)
    change cut? pat (blur c :: blurred t) = _
    rw [cut?, cut?, show blur c :: blurred t = blurred (c :: t) from rfl, front, ih]
    cases stripFront? pat (c :: t) with
    | some rest => rfl
    | none => cases cut? pat t <;> rfl

theorem cutLast?_blurred (t : Text) :
    cutLast? pat (blurred t) = (cutLast? pat t).map (Prod.map blurred blurred) := by
  induction t with
  | nil =>
    change cutLast? pat [] = _
    rw [cutLast?]
    split <;> rfl
  | cons c t ih =>
    have front := stripFront?_blurred sharp (c :: t)
    change cutLast? pat (blur c :: blurred t) = _
    rw [cutLast?, cutLast?, show blur c :: blurred t = blurred (c :: t) from rfl, front, ih]
    cases cutLast? pat t with
    | some parts => rfl
    | none => cases stripFront? pat (c :: t) <;> rfl

end Search

end Text

namespace Placeholder

structure Spells (key s : Text) : Prop where
  chars : ∀ c ∈ s, isSpelling c = true
  canonical : canonicalName? s = some key

instance (key s : Text) : Decidable (Spells key s) :=
  decidable_of_iff (s.all isSpelling = true ∧ canonicalName? s = some key)
    ⟨fun both => ⟨List.all_eq_true.1 both.1, both.2⟩,
      fun spells => ⟨List.all_eq_true.2 spells.chars, spells.canonical⟩⟩

section Spells

variable {key s s' : Text} (own : Spells key s) (other : Spells key s')
include own

theorem Spells.ne_nil : s ≠ [] := by
  rintro rfl
  cases own.canonical

theorem Spells.not_mem {c : Char} (foreign : isSpelling c = false) : c ∉ s := fun member =>
  ne_of_isSpelling (own.chars c member) foreign rfl

theorem Spells.length_eq : s.length = key.length := by
  have bare : trim s = s := trim_solid fun c member => isBlank_of_isSpelling (own.chars c member)
  have canonical := own.canonical
  rw [canonicalName?, bare] at canonical
  split at canonical
  next =>
    rw [← Option.some.inj canonical, hyphenate, asciiLower, List.length_map, List.length_map]
  next => cases canonical

theorem Spells.blurred_eq : s.blurred = List.replicate key.length 'x' := by
  refine List.eq_replicate_iff.2 ⟨(length_blurred s).trans own.length_eq, fun d member => ?_⟩
  obtain ⟨c, inside, rfl⟩ := List.mem_map.1 member
  rw [blur, if_pos (own.chars c inside)]

include other

theorem Spells.length_alike : s.length = s'.length := own.length_eq.trans other.length_eq.symm

theorem Spells.blurred_alike (a b : Text) :
    blurred (a ++ (s ++ b)) = blurred (a ++ (s' ++ b)) := by
  simp only [blurred_append, own.blurred_eq, other.blurred_eq]

theorem Spells.byteLength_alike (a b : Text) :
    byteLength (a ++ (s ++ b)) = byteLength (a ++ (s' ++ b)) := by
  rw [← byteLength_blurred, own.blurred_alike other, byteLength_blurred]

end Spells

end Placeholder

namespace Markers

open Placeholder

def Foreign (m : Markers) : Prop :=
  ∀ c ∈ m.opening ++ m.closing, isSpelling c = false ∧ isStandIn c = false

instance (m : Markers) : Decidable m.Foreign :=
  List.decidableBAll (fun c => isSpelling c = false ∧ isStandIn c = false) (m.opening ++ m.closing)

def Span.blurred (s : Span) : Span := ⟨s.before.blurred, s.body.blurred, s.after.blurred⟩

section Foreign

variable {m : Markers} (foreign : m.Foreign)
include foreign

theorem Foreign.hasNoStandIn : m.HasNoStandIn := fun c member => (foreign c member).2

theorem Foreign.sharp : Sharp m.opening ∧ Sharp m.closing :=
  List.forall_mem_append.1 fun c member => (foreign c member).1

theorem nextSpan?_blurred (t : Text) :
    m.nextSpan? t.blurred = (m.nextSpan? t).map Span.blurred := by
  obtain ⟨opening, closing⟩ := foreign.sharp
  have kept : m.opening.blurred = m.opening := by
    refine (List.map_congr_left fun c member => ?_).trans (List.map_id _)
    simp [blur, opening c member]
  rw [nextSpan?, nextSpan?, cut?_blurred opening]
  cases cut? m.opening t with
  | none => rfl
  | some outer =>
    obtain ⟨before, rest⟩ := outer
    simp only [Option.map_some, Prod.map_apply, cut?_blurred closing]
    cases cut? m.closing rest with
    | none => rfl
    | some inner =>
      obtain ⟨body, after⟩ := inner
      simp only [Option.map_some, Prod.map_apply, cutLast?_blurred opening]
      cases cutLast? m.opening body with
      | none => rfl
      | some last => simp [Span.blurred, blurred_append, kept]

theorem nextSpan?_alike {t t' : Text} (alike : t.blurred = t'.blurred) {s s' : Span}
    (found : m.nextSpan? t = some s)
    (whole : t' = s'.before ++ m.opening ++ s'.body ++ m.closing ++ s'.after)
    (before : s'.before.length = s.before.length) (body : s'.body.length = s.body.length) :
    m.nextSpan? t' = some s' := by
  have same := nextSpan?_blurred foreign t
  rw [alike, nextSpan?_blurred foreign, found] at same
  obtain ⟨⟨x, y, z⟩, other, shape⟩ := Option.map_eq_some_iff.1 same
  obtain ⟨first, second, -⟩ := Span.mk.inj shape
  have sizes := congrArg List.length first
  have inner := congrArg List.length second
  rw [length_blurred, length_blurred] at sizes inner
  have cut := eq_append_of_nextSpan? other
  rw [whole] at cut
  simp only [List.append_assoc] at cut
  obtain ⟨left, cut⟩ := List.append_inj cut (before.trans sizes.symm)
  obtain ⟨mid, right⟩ := List.append_inj (List.append_cancel_left cut) (body.trans inner.symm)
  rw [other, ← left, ← mid, ← List.append_cancel_left right]

end Foreign

section Respelled

variable {m : Markers} (foreign : m.Foreign) {key s s' : Text} (own : Spells key s)
  (other : Spells key s')

section Copy

include foreign own

theorem escape_spelled (a b : Text) :
    m.escape (a ++ (s ++ b)) = m.escape a ++ (s ++ m.escape b) := by
  obtain ⟨opening, closing⟩ := foreign.sharp
  have tickless := own.not_mem (c := backtick) rfl
  obtain ⟨c, rest, rfl⟩ := List.exists_cons_of_ne_nil own.ne_nil
  obtain ⟨first, -⟩ := List.forall_mem_cons.1 own.chars
  have absent {marker : Text} (sharp : Sharp marker) : c ∉ escaped marker := by
    have inner : c ∉ marker := fun member => ne_of_isSpelling first (sharp c member) rfl
    have tick : c ≠ backtick := ne_of_isSpelling first rfl
    simp [escaped, inner, tick]
  have broken : m.escape (a ++ c :: (rest ++ b)) = m.escape a ++ c :: m.escape (rest ++ b) :=
    substituteFrom_append_break (forall_escapeRules (by simp [escaped]) (by simp [escaped]))
      (forall_escapeRules (absent opening) (absent closing)) (Nat.zero_le _) _
  rw [List.cons_append, broken, m.escape_append fun member => tickless (.tail _ member)]
  rfl

end Copy

include foreign own other

theorem nextSpan?_respelled {a b p q : Text} {u u' : Span}
    (found : m.nextSpan? (m.escape (a ++ (s ++ b))) = some u)
    (whole : u.before ++ m.opening ++ u.body ++ m.closing ++ u.after = p ++ (s ++ q))
    (whole' : u'.before ++ m.opening ++ u'.body ++ m.closing ++ u'.after = p ++ (s' ++ q))
    (size : byteLength p = byteLength a) (before : u'.before.length = u.before.length)
    (body : u'.body.length = u.body.length) :
    m.nextSpan? (m.escape (a ++ (s' ++ b))) = some u' := by
  rw [escape_spelled foreign own] at found
  rw [escape_spelled foreign other]
  have copy := (eq_append_of_nextSpan? found).trans whole
  obtain ⟨rfl, behind⟩ := eq_of_byteLength copy ((byteLength_escape m a).trans size.symm)
  obtain rfl := List.append_cancel_left behind
  exact nextSpan?_alike foreign (own.blurred_alike other _ _) found whole'.symm before body

theorem Cutting.respelled {t last before front back : Text} {done later : List Cut}
    (cutting : m.Cutting t (done ++ ⟨before, front ++ (s ++ back)⟩ :: later) last) :
    ∃ a b, t = a ++ (s ++ b) ∧
      m.Cutting (a ++ (s' ++ b)) (done ++ ⟨before, front ++ (s' ++ back)⟩ :: later) last := by
  have sizes (x y : Text) :
      (m.escape (x ++ (s' ++ y))).length = (m.escape (x ++ (s ++ y))).length := by
    rw [escape_spelled foreign own, escape_spelled foreign other]
    simp only [List.length_append, own.length_alike other]
  induction done generalizing t with
  | nil =>
    cases cutting with
    | @cut c rest _ _ found tail =>
      -- The spelling is in this placeholder, with as many bytes in front of it in the copy.
      refine ⟨before ++ (m.opening ++ front), back ++ (m.closing ++ rest), by simp [Cut.text], ?_⟩
      have shape (w : Text) :
          before ++ (m.opening ++ front) ++ (w ++ (back ++ (m.closing ++ rest))) =
            Cut.text m ⟨before, front ++ (w ++ back)⟩ ++ rest := by simp [Cut.text]
      rw [shape]
      refine .cut ?_ tail
      rw [← shape] at found ⊢
      refine nextSpan?_respelled foreign own other found
        (p := m.escape before ++ (m.opening ++ m.escape front))
        (q := m.escape back ++ (m.closing ++ m.escape rest)) ?_ ?_ ?_ rfl (sizes _ _)
      · simp [escape_spelled foreign own]
      · simp [escape_spelled foreign other]
      · simp only [byteLength_append, byteLength_escape]
  | cons d done ih =>
    cases cutting with
    | @cut _ rest _ _ found tail =>
      -- It is behind this one, whose own text stays as it is.
      obtain ⟨a, b, rfl, cutting⟩ := ih tail
      refine ⟨d.text m ++ a, b, by simp, ?_⟩
      rw [List.append_assoc]
      refine .cut ?_ cutting
      rw [← List.append_assoc] at found ⊢
      refine nextSpan?_respelled foreign own other found
        (p := m.escape d.before ++ (m.opening ++ (m.escape d.inside ++ (m.closing ++ m.escape a))))
        (q := m.escape b) ?_ ?_ ?_ rfl rfl
      · simp [escape_spelled foreign own]
      · simp [escape_spelled foreign other]
      · simp only [Cut.text, byteLength_append, byteLength_escape]
        omega

end Respelled

theorem visitsFrom_paired {m : Markers} {R : Text → Text → Prop} {t t' last last' : Text}
    {cuts cuts' : List Cut} (cutting : m.Cutting t cuts last)
    (cutting' : m.Cutting t' cuts' last')
    (paired : List.Forall₂ (fun c c' => byteLength c.before = byteLength c'.before ∧
      byteLength c.inside = byteLength c'.inside ∧ R (m.escape c.inside) (m.escape c'.inside))
      cuts cuts') {a a' : Text} (size : byteLength a = byteLength a') :
    List.Forall₂ (fun v v' => byteLength (v.done ++ v.before) = byteLength (v'.done ++ v'.before) ∧
      R v.body v'.body) (m.visitsFrom a (m.escape t)) (m.visitsFrom a' (m.escape t')) := by
  induction paired generalizing t t' a a' with
  | nil =>
    cases cutting with
    | last missing =>
      cases cutting' with
      | last missing' =>
        rw [visitsFrom_none missing, visitsFrom_none missing']
        exact .nil
  | cons alike _ ih =>
    obtain ⟨before, inside, related⟩ := alike
    cases cutting with
    | cut found tail =>
      cases cutting' with
      | cut found' tail' =>
        rw [visitsFrom_some found, visitsFrom_some found']
        refine .cons ⟨?_, related⟩ (ih tail tail' ?_)
        · simp only [byteLength_append, byteLength_escape, size, before]
        · simp only [byteLength_append, byteLength_escape, size, before, inside]

section Places

variable {m : Markers} (foreign : m.Foreign) {key s s' : Text} (own : Spells key s)
  (other : Spells key s')

include foreign own other in
theorem Cutting.visits_respelled {t t' last before front back : Text} {done later : List Cut}
    (cutting : m.Cutting t (done ++ ⟨before, front ++ (s ++ back)⟩ :: later) last)
    (cutting' : m.Cutting t' (done ++ ⟨before, front ++ (s' ++ back)⟩ :: later) last) :
    List.Forall₂ (fun v v' => byteLength (v.done ++ v.before) = byteLength (v'.done ++ v'.before) ∧
      (v'.body = v.body ∨ v.body = m.escape front ++ (s ++ m.escape back) ∧
        v'.body = m.escape front ++ (s' ++ m.escape back)))
      (m.visits (m.escape t)) (m.visits (m.escape t')) := by
  let R (x x' : Text) : Prop := x' = x ∨
    x = m.escape front ++ (s ++ m.escape back) ∧ x' = m.escape front ++ (s' ++ m.escape back)
  refine visitsFrom_paired (R := R) cutting cutting' (List.rel_append ?_ (.cons ?_ ?_)) rfl
  · exact List.forall₂_same.2 fun c _ => ⟨rfl, rfl, .inl rfl⟩
  · exact ⟨rfl, own.byteLength_alike other front back,
      .inr ⟨escape_spelled foreign own front back, escape_spelled foreign other front back⟩⟩
  · exact List.forall₂_same.2 fun c _ => ⟨rfl, rfl, .inl rfl⟩

end Places

end Markers

namespace Engine

open Placeholder Markers

theorem interpolate_reserved (e : Engine) (vars : Vars) {t t' : Text}
    (alike : t.blurred = t'.blurred) (reserved : ¬ ∀ c ∈ t, isStandIn c = false) :
    e.interpolate t vars = e.interpolate t' vars := by
  obtain ⟨a, rest, rfl, bare, stop⟩ := exists_longest (fun c => !isStandIn c) t
  cases rest with
  | nil => exact absurd (by simpa using bare) reserved
  | cons c b =>
    have standIn : isStandIn c = true := by simpa using stop
    obtain ⟨a', rest', rfl, front, back⟩ :=
      List.map_eq_append_iff.1 (alike.symm.trans (blurred_append a (c :: b)))
    obtain ⟨c', b', rfl, same, -⟩ := List.map_eq_cons_iff.1 back
    obtain rfl : c = c' := by
      have sharp : isSpelling c = false := by
        rw [← Bool.not_eq_true]
        intro spelling
        simp [isStandIn_of_isSpelling spelling] at standIn
      rw [← eq_blur_iff sharp, same, blur, sharp]
      rfl
    have place : Position.behind a = Position.behind a' := by
      rw [← Position.behind_blurred a, ← Position.behind_blurred a', ← front]
      rfl
    have bare' : ∀ d ∈ a', isStandIn d = false := by
      intro d member
      have blurs : blur d ∈ a.blurred := front ▸ List.mem_map_of_mem member
      obtain ⟨x, inside, same⟩ := List.mem_map.1 blurs
      rw [← isStandIn_blur d, ← same, isStandIn_blur x]
      simpa using bare x inside
    rw [e.interpolate_standIn_place vars (by simpa using bare) standIn,
      e.interpolate_standIn_place vars bare' standIn, place]

end Engine

end Docspec
