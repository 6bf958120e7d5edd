import Docspec.Text.Position
import Mathlib.Data.List.Induction

set_option autoImplicit false

namespace Docspec.Text

def Apart (pat t : Text) : Prop := ∀ c ∈ t, c ∉ pat

theorem forall_of_any {p : Char → Bool} {t : Text} (none : t.any p = false) :
    ∀ c ∈ t, p c = false := fun c member => by
  simpa using List.any_eq_false.1 none c member

theorem stripFront?_eq_none {pat : Text} (nonempty : pat ≠ []) {c : Char} (absent : c ∉ pat)
    (t : Text) : stripFront? pat (c :: t) = none := by
  cases pat with
  | nil => exact absurd rfl nonempty
  | cons p pat =>
    have differ : p ≠ c := fun same => absent (by simp [same])
    simp [stripFront?, differ]

@[simp] theorem startsWith_append (pat t : Text) : startsWith pat (pat ++ t) = true := by
  simp [startsWith]

@[simp] theorem startsWith_nil (t : Text) : startsWith [] t = true := rfl

theorem startsWith_cons (p c : Char) (pat t : Text) :
    startsWith (p :: pat) (c :: t) = (p == c && startsWith pat t) := by
  by_cases same : p = c <;> simp [startsWith, stripFront?, same]

theorem startsWith_of_append {pat more t : Text} (begins : startsWith (pat ++ more) t = true) :
    startsWith pat t = true := by
  obtain ⟨rest, found⟩ := Option.isSome_iff_exists.1 begins
  rw [stripFront?_eq_some_iff.1 found, List.append_assoc]
  exact startsWith_append pat _

theorem stripFront?_eq_none_iff {pat t : Text} :
    stripFront? pat t = none ↔ startsWith pat t = false := by
  rw [startsWith, Option.isSome_eq_false_iff, Option.isNone_iff_eq_none]

theorem cut?_self (pat t : Text) : cut? pat (pat ++ t) = some ([], t) := by
  cases h : pat ++ t with
  | nil =>
    obtain ⟨rfl, rfl⟩ := List.append_eq_nil_iff.1 h
    rfl
  | cons c r => simp [cut?, ← h]

theorem cut?_append {pat before : Text} (nonempty : pat ≠ []) (apart : Apart pat before)
    (t : Text) : cut? pat (before ++ t) = (cut? pat t).map fun (a, b) => (before ++ a, b) := by
  induction before with
  | nil => simp
  | cons c before ih =>
    have absent : c ∉ pat := apart c (by simp)
    have rest := ih fun d member => apart d (by simp [member])
    simp only [List.cons_append, cut?, stripFront?_eq_none nonempty absent, rest, Option.map_map]
    rfl

theorem cutLast?_eq_none {pat t : Text} (nonempty : pat ≠ []) (apart : Apart pat t) :
    cutLast? pat t = none := by
  induction t with
  | nil => simp [cutLast?, nonempty]
  | cons c t ih =>
    have absent : c ∉ pat := apart c (by simp)
    have rest := ih fun d member => apart d (by simp [member])
    simp [cutLast?, rest, stripFront?_eq_none nonempty absent]

theorem stripFront?_append_break {pat : Text} {c : Char} (absent : c ∉ pat) (a b : Text) :
    stripFront? pat (a ++ c :: b) = (stripFront? pat a).map (· ++ c :: b) := by
  induction pat generalizing a with
  | nil => rfl
  | cons p pat ih =>
    rw [List.mem_cons, not_or] at absent
    cases a with
    | nil => simp [stripFront?, Ne.symm absent.1]
    | cons x a =>
      by_cases same : p = x
      next => simp [stripFront?, same, ih absent.2]
      next => simp [stripFront?, same]

theorem cut?_append_break {pat a : Text} {c : Char} (absent : c ∉ pat) (missing : cut? pat a = none)
    (b : Text) : cut? pat (a ++ c :: b) = (cut? pat b).map fun (x, y) => (a ++ c :: x, y) := by
  induction a with
  | nil =>
    have nonempty : pat ≠ [] := fun none => by simp [cut?, none] at missing
    rw [List.nil_append, cut?, stripFront?_eq_none nonempty absent]
    rfl
  | cons x a ih =>
    rw [cut?] at missing
    split at missing
    next => cases missing
    next unmatched =>
      have rest := ih (Option.map_eq_none_iff.1 missing)
      have moved := stripFront?_append_break absent (x :: a) b
      rw [unmatched, Option.map_none, List.cons_append] at moved
      rw [List.cons_append, cut?, moved, rest, Option.map_map]
      rfl

theorem cut?_eq_none_of_foreign {pat t : Text} {c : Char} (inside : c ∈ pat) (absent : c ∉ t) :
    cut? pat t = none := by
  refine Option.eq_none_iff_forall_not_mem.2 fun parts found => absent ?_
  rw [cut?_eq_append (Option.mem_def.1 found)]
  simp [inside]

theorem cut?_suffix {pat a b : Text} (missing : cut? pat (a ++ b) = none) : cut? pat b = none := by
  induction a with
  | nil => exact missing
  | cons c a ih =>
    rw [List.cons_append, cut?] at missing
    split at missing
    next => cases missing
    next => exact ih (Option.map_eq_none_iff.1 missing)

theorem cut?_eq_none_of_apart {pat t : Text} (nonempty : pat ≠ []) (apart : Apart pat t) :
    cut? pat t = none := by
  have moved := cut?_append nonempty apart []
  rw [List.append_nil, show cut? pat [] = none by simp [cut?, nonempty]] at moved
  exact moved

theorem cut?_join {pat a b : Text} {c : Char} (absent : c ∉ pat) (left : cut? pat a = none)
    (right : cut? pat b = none) : cut? pat (a ++ c :: b) = none := by
  rw [cut?_append_break absent left, right]
  rfl

theorem cut?_of_containsText {pat t : Text} (missing : containsText pat t = false) :
    cut? pat t = none := by
  simpa [containsText] using missing

theorem cutLast?_of_cut? {pat t : Text} (missing : cut? pat t = none) : cutLast? pat t = none := by
  induction t with
  | nil => exact missing
  | cons x t ih =>
    rw [cut?] at missing
    split at missing
    next => cases missing
    next unmatched =>
      rw [cutLast?, ih (Option.map_eq_none_iff.1 missing), unmatched]
      rfl

theorem splitOnce_append {p : Char → Bool} {a : Text} {c : Char} (before : ∀ d ∈ a, p d = false)
    (found : p c = true) (b : Text) : splitOnce p (a ++ c :: b) = some (a, b) := by
  induction a with
  | nil => simp [splitOnce, found]
  | cons d a ih =>
    have rest := ih fun e member => before e (by simp [member])
    simp [splitOnce, before d (by simp), rest]

theorem splitAll_of_not_mem {sep : Char} {t : Text} (absent : sep ∉ t) : splitAll sep t = [t] := by
  induction t with
  | nil => rfl
  | cons c t ih =>
    rw [List.mem_cons, not_or] at absent
    rw [splitAll, if_neg (Ne.symm absent.1), ih absent.2]

theorem splitAll_append {sep : Char} {a : Text} (absent : sep ∉ a) (b : Text) :
    splitAll sep (a ++ sep :: b) = a :: splitAll sep b := by
  induction a with
  | nil => simp [splitAll]
  | cons c a ih =>
    rw [List.mem_cons, not_or] at absent
    rw [List.cons_append, splitAll, if_neg (Ne.symm absent.1), ih absent.2]

theorem head?_splitAll (sep : Char) (t : Text) :
    (splitAll sep t).head? = some (t.takeWhile (· ≠ sep)) := by
  induction t with
  | nil => rfl
  | cons c t ih =>
    rw [splitAll]
    split
    next same => simp [same]
    next differ =>
      cases pieces : splitAll sep t with
      | nil => exact absurd pieces (splitAll_ne_nil sep t)
      | cons piece rest =>
        rw [pieces, List.head?_cons, Option.some_inj] at ih
        simp [differ, ih]

theorem mem_of_mem_splitAll {sep : Char} {t piece : Text} (member : piece ∈ splitAll sep t)
    {c : Char} (inside : c ∈ piece) : c ∈ t := by
  induction t generalizing piece with
  | nil =>
    rw [List.mem_singleton.1 member] at inside
    cases inside
  | cons d t ih =>
    rw [splitAll] at member
    split at member
    next =>
      rcases List.mem_cons.1 member with rfl | later
      · cases inside
      · exact List.mem_cons_of_mem d (ih later inside)
    next =>
      cases rest : splitAll sep t with
      | nil => exact absurd rest (splitAll_ne_nil sep t)
      | cons first more =>
        rw [rest] at member ih
        rcases List.mem_cons.1 member with rfl | later
        · rcases List.mem_cons.1 inside with rfl | behind
          · exact List.mem_cons_self
          · exact List.mem_cons_of_mem d (ih List.mem_cons_self behind)
        · exact List.mem_cons_of_mem d (ih (List.mem_cons_of_mem first later) inside)

theorem joinWith_cons_cons (sep a b : Text) (as : List Text) :
    joinWith sep (a :: b :: as) = a ++ sep ++ joinWith sep (b :: as) :=
  List.intercalate_cons_cons

theorem joinWith_ne_nil (sep : Text) {a : Text} {as : List Text} (visible : a ≠ []) :
    joinWith sep (a :: as) ≠ [] := by
  cases as with
  | nil => simpa [joinWith] using visible
  | cons b as => simp [joinWith_cons_cons, visible]

theorem joinWith_append (sep : Text) {as bs : List Text} (left : as ≠ []) (right : bs ≠ []) :
    joinWith sep (as ++ bs) = joinWith sep as ++ sep ++ joinWith sep bs := by
  induction as with
  | nil => exact absurd rfl left
  | cons a as ih =>
    cases as with
    | nil =>
      rw [List.singleton_append, joinWith, joinWith, joinWith,
        List.intercalate_cons_of_ne_nil right, List.intercalate_singleton]
    | cons b as =>
      have rest := ih (List.cons_ne_nil b as)
      rw [List.cons_append, List.cons_append, joinWith_cons_cons, ← List.cons_append, rest,
        joinWith_cons_cons]
      simp only [List.append_assoc]

theorem substituteFrom_length (rules : List (Text × Text)) (a t : Text) :
    substituteFrom rules a.length (a ++ t) = substituteFrom rules 0 t := by
  induction a with
  | nil => rfl
  | cons c a ih => simpa [substituteFrom] using ih

theorem substitute_rule {rules : List (Text × Text)} {pat image : Text} (nonempty : pat ≠ [])
    {t : Text} (first : firstRule? rules (pat ++ t) = some (pat, image)) :
    substitute rules (pat ++ t) = image ++ substitute rules t := by
  cases pat with
  | nil => exact absurd rfl nonempty
  | cons c pat =>
    rw [List.cons_append] at first
    simp only [substitute, List.cons_append, substituteFrom, first, List.length_cons,
      Nat.add_sub_cancel, substituteFrom_length]

theorem substitute_char {rules : List (Text × Text)} {c : Char} {t : Text}
    (unmatched : firstRule? rules (c :: t) = none) :
    substitute rules (c :: t) = c :: substitute rules t := by
  rw [substitute, substituteFrom, unmatched, substitute]

theorem substitute_append {rules : List (Text × Text)} {a : Text}
    (apart : ∀ rule ∈ rules, ∃ c pat, rule.1 = c :: pat ∧ c ∉ a) (t : Text) :
    substitute rules (a ++ t) = a ++ substitute rules t := by
  induction a with
  | nil => rfl
  | cons c a ih =>
    have rest := ih fun rule member => by
      obtain ⟨d, pat, shape, absent⟩ := apart rule member
      exact ⟨d, pat, shape, fun inside => absent (by simp [inside])⟩
    have unmatched : firstRule? rules (c :: (a ++ t)) = none := by
      rw [firstRule?, List.find?_eq_none]
      intro rule member
      obtain ⟨d, pat, shape, absent⟩ := apart rule member
      have differ : d ≠ c := fun same => absent (by simp [same])
      simp [shape, startsWith, stripFront?, differ]
    rw [substitute] at rest
    rw [List.cons_append, substitute, substituteFrom, unmatched, List.cons_append, rest]

namespace Position

def shift (before : Text) (p : Position) : Position where
  line := p.line + before.count '\n'
  column :=
    if p.line = 1 then p.column + (before.reverse.takeWhile (· ≠ '\n')).length else p.column

theorem shift_advance (before : Text) (p : Position) (c : Char) (counted : 1 ≤ p.line) :
    (p.shift before).advance c = (p.advance c).shift before := by
  by_cases newline : c = '\n'
  next =>
    have later : p.line + 1 ≠ 1 := by omega
    simp only [advance, shift, newline, if_true, later, if_false]
    congr 1
    omega
  next =>
    by_cases first : p.line = 1
    next =>
      simp only [advance, shift, newline, first, if_true, if_false]
      congr 1
      omega
    next => simp [advance, shift, newline, first]

theorem advance_line (p : Position) (c : Char) : p.line ≤ (p.advance c).line := by
  by_cases newline : c = '\n' <;> simp [advance, newline]

theorem atOffset_shift (before : Text) (p : Position) (counted : 1 ≤ p.line) (n : Nat)
    (t : Text) : (p.shift before).atOffset n t = (p.atOffset n t).shift before := by
  induction t generalizing n p with
  | nil => cases n <;> rfl
  | cons c t ih =>
    cases n with
    | zero => rfl
    | succ n =>
      have later : 1 ≤ (p.advance c).line := Nat.le_trans counted (p.advance_line c)
      simp only [atOffset, shift_advance before p c counted, ih _ later]

theorem advanceBy_start (before : Text) : start.advanceBy before = start.shift before := by
  induction before using List.reverseRecOn with
  | nil => rfl
  | append_singleton before c ih =>
    have step : start.advanceBy (before ++ [c]) = (start.advanceBy before).advance c := by
      simp [advanceBy]
    rw [step, ih]
    by_cases newline : c = '\n'
    next => simp [advance, shift, start, newline]; omega
    next => simp [advance, shift, start, newline]; omega

theorem atOffset_add (p : Position) (a t : Text) (n : Nat) :
    p.atOffset (byteLength a + n) (a ++ t) = (p.advanceBy a).atOffset n t := by
  induction a generalizing p with
  | nil => simp [advanceBy]
  | cons c a ih =>
    have positive : 0 < c.utf8Size := Char.utf8Size_pos c
    obtain ⟨k, hk⟩ : ∃ k, byteLength (c :: a) + n = k + 1 :=
      ⟨byteLength (c :: a) + n - 1, by simp only [byteLength_cons]; omega⟩
    have rest : k + 1 - c.utf8Size = byteLength a + n := by
      simp only [byteLength_cons] at hk
      omega
    rw [hk, List.cons_append, atOffset, rest, ih]
    rfl

theorem atOffset_le (p : Position) {a : Text} {n : Nat} (inside : n ≤ byteLength a) (t : Text) :
    p.atOffset n (a ++ t) = p.atOffset n a := by
  induction a generalizing n p with
  | nil =>
    obtain rfl : n = 0 := by simpa using inside
    cases t <;> rfl
  | cons c a ih =>
    cases n with
    | zero => rfl
    | succ n =>
      have rest : n + 1 - c.utf8Size ≤ byteLength a := by
        simp only [byteLength_cons] at inside
        omega
      simp only [List.cons_append, atOffset, ih _ rest]

end Position

theorem locate_piece (before piece after : Text) {n : Nat} (inside : n ≤ byteLength piece) :
    locate (before ++ piece ++ after) (byteLength before + n) =
      (locate piece n).shift before := by
  rw [locate, List.append_assoc, Position.atOffset_add, Position.atOffset_le _ inside,
    Position.advanceBy_start, Position.atOffset_shift before .start (Nat.le_refl 1)]
  rfl

end Docspec.Text
