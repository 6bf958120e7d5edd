import Docspec.Text.Basic
import Mathlib.Data.List.Basic
import Mathlib.Data.List.TakeWhile

set_option autoImplicit false

namespace Docspec.Text

theorem trimEnd_cons (c : Char) (t : Text) :
    trimEnd (c :: t) = if trimEnd t = [] ∧ isBlank c = true then [] else c :: trimEnd t := by
  rw [trimEnd]
  cases trimEnd t <;> by_cases blank : isBlank c = true <;> simp [blank]

theorem trimEnd_trimEnd (t : Text) : trimEnd (trimEnd t) = trimEnd t := by
  induction t with
  | nil => rfl
  | cons c t ih =>
    rw [trimEnd_cons]
    split
    next => rfl
    next kept => rw [trimEnd_cons, ih, if_neg kept]

theorem trimEnd_of_last {t : Text} (back : ∀ c ∈ t.getLast?, isBlank c = false) :
    trimEnd t = t := by
  induction t with
  | nil => rfl
  | cons c t ih =>
    cases t with
    | nil => simp [trimEnd, back c (by simp)]
    | cons d r => rw [trimEnd_cons, ih (by simpa using back), if_neg (by simp)]

theorem trim_of_ends {t : Text} (front : ∀ c ∈ t.head?, isBlank c = false)
    (back : ∀ c ∈ t.getLast?, isBlank c = false) : trim t = t := by
  have start : trimStart t = t := by
    cases t with
    | nil => rfl
    | cons c t => simp [trimStart, front c (by simp)]
  rw [trim, start, trimEnd_of_last back]

section Solid

variable {t : Text} (solid : ∀ c ∈ t, isBlank c = false)
include solid

theorem trimEnd_solid : trimEnd t = t :=
  trimEnd_of_last fun c last => solid c (List.mem_of_mem_getLast? last)

theorem trim_solid : trim t = t :=
  trim_of_ends (fun c first => solid c (List.mem_of_mem_head? first))
    fun c last => solid c (List.mem_of_mem_getLast? last)

end Solid

theorem trim_trim (t : Text) : trim (trim t) = trim t := by
  have fixed : trimStart (trim t) = trim t := by
    rw [trim]
    cases start : trimStart t with
    | nil => rfl
    | cons c r =>
      have bare : isBlank c = false := by
        have head := List.head?_dropWhile_not isBlank t
        rwa [← trimStart, start] at head
      rw [trimEnd_cons, if_neg (by simp [bare]), trimStart,
        List.dropWhile_cons_of_neg (by simp [bare])]
  rw [trim, fixed, trim, trimEnd_trimEnd]

theorem trimEnd_append_blank {t : Text} {c : Char} (blank : isBlank c = true) :
    trimEnd (t ++ [c]) = trimEnd t := by
  induction t with
  | nil => simp [trimEnd, blank]
  | cons d t ih => rw [List.cons_append, trimEnd_cons, trimEnd_cons, ih]

theorem trim_append_blank (t : Text) {c : Char} (blank : isBlank c = true) :
    trim (t ++ [c]) = trim t := by
  induction t with
  | nil => simp [trim, trimStart, blank]
  | cons d t ih =>
    by_cases first : isBlank d = true
    next =>
      have skipped (r : Text) : trim (d :: r) = trim r := by simp [trim, trimStart, first]
      rw [List.cons_append, skipped, skipped, ih]
    next =>
      have kept (r : Text) : trim (d :: r) = trimEnd (d :: r) := by simp [trim, trimStart, first]
      rw [List.cons_append, kept, kept, ← List.cons_append, trimEnd_append_blank blank]

theorem trim_append_blanks (a : Text) {b : Text} (blank : ∀ c ∈ b, isBlank c = true) :
    trim (a ++ b) = trim a := by
  induction b generalizing a with
  | nil => rw [List.append_nil]
  | cons c b ih =>
    obtain ⟨own, others⟩ := List.forall_mem_cons.1 blank
    rw [List.append_cons, ih (a ++ [c]) others, trim_append_blank a own]

theorem trimEnd_eq_nil_iff {t : Text} : trimEnd t = [] ↔ isAllBlank t = true := by
  induction t with
  | nil => simp [trimEnd, isAllBlank]
  | cons c t ih =>
    have own : isAllBlank (c :: t) = true ↔ trimEnd t = [] ∧ isBlank c = true := by
      rw [ih, isAllBlank, List.all_cons, Bool.and_eq_true, and_comm]
      rfl
    rw [trimEnd_cons, own]
    split
    next both => exact iff_of_true rfl both
    next kept => exact iff_of_false (List.cons_ne_nil _ _) kept

theorem last_trimEnd (t : Text) : ∀ c ∈ (trimEnd t).getLast?, isBlank c = false := by
  induction t with
  | nil => simp [trimEnd]
  | cons c t ih =>
    rw [trimEnd_cons]
    split
    next => simp
    next kept =>
      cases rest : trimEnd t with
      | nil => simpa [rest] using kept
      | cons d r =>
        rw [rest] at ih
        simpa using ih

theorem head_trim (t : Text) : ∀ c ∈ (trim t).head?, isBlank c = false := by
  have head := List.head?_dropWhile_not isBlank t
  rw [trim, trimStart]
  cases start : t.dropWhile isBlank with
  | nil => simp [trimEnd]
  | cons c r =>
    have bare : isBlank c = false := by rwa [start] at head
    rw [trimEnd_cons, if_neg (by simp [bare])]
    simpa using bare

theorem trim_append {a b : Text} (left : trim a = a) (right : trim b = b) (nonempty : a ≠ [])
    (nonempty' : b ≠ []) (between : Text) : trim (a ++ between ++ b) = a ++ between ++ b := by
  apply trim_of_ends
  · rw [List.append_assoc, List.head?_append_of_ne_nil _ nonempty, ← left]
    exact head_trim a
  · rw [List.getLast?_append_of_ne_nil _ nonempty', ← right]
    exact last_trimEnd _

theorem trim_blanks_append {a : Text} (blank : ∀ c ∈ a, isBlank c = true) (b : Text) :
    trim (a ++ b) = trim b := by
  rw [trim, trimStart, List.dropWhile_append_of_pos blank]
  rfl

theorem exists_trimEnd (t : Text) : ∃ b, t = trimEnd t ++ b ∧ ∀ c ∈ b, isBlank c = true := by
  induction t with
  | nil => exact ⟨[], rfl, by simp⟩
  | cons c t ih =>
    obtain ⟨b, shape, blank⟩ := ih
    rw [trimEnd_cons]
    split
    next none =>
      rw [none.1, List.nil_append] at shape
      exact ⟨c :: t, rfl, List.forall_mem_cons.2 ⟨none.2, shape ▸ blank⟩⟩
    next => exact ⟨b, congrArg (c :: ·) shape, blank⟩

theorem trim_trimEnd (t : Text) : trim (trimEnd t) = trim t := by
  obtain ⟨b, shape, blank⟩ := exists_trimEnd t
  have same := congrArg trim shape
  rwa [trim_append_blanks _ blank, eq_comm] at same

theorem trimEnd_of_trim {t : Text} (trimmed : trim t = t) : trimEnd t = t := by
  rw [← trimmed, trim, trimEnd_trimEnd]

theorem trim_word {word : Text} (visible : word ≠ []) (solid : ∀ c ∈ word, isBlank c = false)
    (rest : Text) : trim (word ++ rest) = word ++ trimEnd rest := by
  obtain ⟨b, shape, blank⟩ := exists_trimEnd rest
  rw [shape, ← List.append_assoc, trim_append_blanks _ blank, ← shape]
  refine trim_of_ends (fun c first => ?_) fun c last => ?_
  · rw [List.head?_append_of_ne_nil _ visible] at first
    exact solid c (List.mem_of_mem_head? first)
  · cases kept : trimEnd rest with
    | nil =>
      rw [kept, List.append_nil] at last
      exact solid c (List.mem_of_mem_getLast? last)
    | cons d r =>
      rw [List.getLast?_append_of_ne_nil _ (by simp [kept])] at last
      exact last_trimEnd rest c last

theorem trimEnd_word {word : Text} (visible : word ≠ []) (solid : ∀ c ∈ word, isBlank c = false)
    (rest : Text) : trimEnd (word ++ rest) = word ++ trimEnd rest := by
  have start : trimStart (word ++ rest) = word ++ rest := by
    cases word with
    | nil => exact absurd rfl visible
    | cons c word => simp [trimStart, solid c List.mem_cons_self]
  have trimmed := trim_word visible solid rest
  rwa [trim, start] at trimmed

theorem trimmed?_eq (t : Text) : trimmed? t = if trim t = [] then none else some (trim t) := by
  rw [trimmed?]
  cases trim t <;> simp

theorem dropWhile_trimEnd (p : Char → Bool) (t : Text) :
    (trimEnd t).dropWhile p = trimEnd (t.dropWhile p) := by
  induction t with
  | nil => rfl
  | cons c t ih =>
    by_cases taken : p c = true
    next =>
      rw [trimEnd_cons, List.dropWhile_cons_of_pos taken, ← ih]
      split
      next none => rw [none.1]
      next => rw [List.dropWhile_cons_of_pos taken]
    next =>
      rw [List.dropWhile_cons_of_neg taken, trimEnd_cons]
      split
      next => rfl
      next => rw [List.dropWhile_cons_of_neg taken]

theorem takeWhile_trimEnd {p : Char → Bool} (solid : ∀ c, p c = true → isBlank c = false)
    (t : Text) : (trimEnd t).takeWhile p = t.takeWhile p := by
  induction t with
  | nil => rfl
  | cons c t ih =>
    rw [trimEnd_cons]
    split
    next none =>
      have other : ¬ p c = true := fun taken => by simp [solid c taken] at none
      rw [List.takeWhile_cons_of_neg other, List.takeWhile_nil]
    next =>
      by_cases taken : p c = true
      next => rw [List.takeWhile_cons_of_pos taken, List.takeWhile_cons_of_pos taken, ih]
      next => rw [List.takeWhile_cons_of_neg taken, List.takeWhile_cons_of_neg taken]

theorem head?_of_trimEnd {c : Char} {t r : Text} (kept : trimEnd t = c :: r) :
    t.head? = some c := by
  obtain ⟨b, shape, -⟩ := exists_trimEnd t
  rw [shape, kept]
  rfl

theorem exists_trim (t : Text) :
    ∃ lead trail, t = lead ++ (trim t ++ trail) ∧ (∀ c ∈ lead, isBlank c = true) ∧
      ∀ c ∈ trail, isBlank c = true := by
  obtain ⟨trail, shape, blank⟩ := exists_trimEnd (trimStart t)
  refine ⟨t.takeWhile isBlank, trail, ?_, fun c => List.mem_takeWhile_imp, blank⟩
  rw [trim, ← shape]
  exact List.takeWhile_append_dropWhile.symm

theorem count_trim {c : Char} (visible : isBlank c = false) (t : Text) :
    (trim t).count c = t.count c := by
  obtain ⟨lead, trail, shape, before, behind⟩ := exists_trim t
  have absent {b : Text} (blank : ∀ d ∈ b, isBlank d = true) : b.count c = 0 :=
    List.count_eq_zero.2 fun member => by simp [blank c member] at visible
  have whole := congrArg (List.count c) shape
  rwa [List.count_append, List.count_append, absent before, absent behind, Nat.zero_add,
    Nat.add_zero, eq_comm] at whole

theorem mem_trimEnd_iff {c : Char} (visible : isBlank c = false) (t : Text) :
    c ∈ trimEnd t ↔ c ∈ t := by
  obtain ⟨b, shape, blank⟩ := exists_trimEnd t
  have absent : c ∉ b := fun member => by simp [blank c member] at visible
  constructor
  · intro member
    rw [shape]
    exact List.mem_append_left b member
  · intro member
    rw [shape] at member
    exact (List.mem_append.1 member).resolve_right absent

theorem mem_trim_iff {c : Char} (visible : isBlank c = false) (t : Text) :
    c ∈ trim t ↔ c ∈ t := by
  rw [← List.count_pos_iff, count_trim visible, List.count_pos_iff]

theorem trim_eq_nil_iff {t : Text} : trim t = [] ↔ isAllBlank t = true := by
  constructor
  next =>
    intro none
    obtain ⟨lead, trail, shape, before, behind⟩ := exists_trim t
    rw [shape, none]
    exact List.all_eq_true.2 (List.forall_mem_append.2 ⟨before, behind⟩)
  next =>
    intro blank
    have start : trimStart t = [] := List.dropWhile_eq_nil_iff.2 (List.all_eq_true.1 blank)
    rw [trim, start]
    rfl

end Docspec.Text
