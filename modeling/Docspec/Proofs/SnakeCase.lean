import Docspec.Placeholder.Filter
import Mathlib.Data.List.Destutter

set_option autoImplicit false

namespace Docspec

namespace Text

section Shifts

variable {s r : CaseShift} {n k : Nat}

def CaseShift.imageFirst (s : CaseShift) : Nat := (s.first + s.shift).toNat

def CaseShift.imageLast (s : CaseShift) : Nat := (s.last + s.shift).toNat

def CaseShift.landsIn (s : CaseShift) (range : Nat × Nat) : Bool :=
  range.1.ble s.imageFirst && s.imageLast.ble range.2

/-- Nothing that `s` leads to is moved by `r`: the code points lie apart, or between those that `r`
moves. -/
def CaseShift.clears (s r : CaseShift) : Bool :=
  s.imageLast.blt r.first || r.last.blt s.imageFirst ||
    ((s.first == s.last || s.stride == 2) && r.stride == 2 && (s.imageFirst + r.first) % 2 == 1)

theorem lowerShifts_land :
    (lowerShifts.all fun s => s.landsIn (97, 122) || alphanumericRanges.any s.landsIn) = true := by
  decide +kernel

theorem lowerShifts_clear : (lowerShifts.all fun s => lowerShifts.all s.clears) = true := by
  decide +kernel

theorem lowerShifts_single : ∀ s ∈ lowerShifts, s.imageLast < 304 ∨ 304 < s.imageFirst := by
  decide +kernel

theorem alphanumericRanges_valid :
    ∀ r ∈ alphanumericRanges, 128 ≤ r.1 ∧ (r.2 < 0xD800 ∨ 0xDFFF < r.1 ∧ r.2 < 0x110000) := by
  decide +kernel

theorem CaseShift.eq_of_moved (moved : s.apply? n = some k) :
    s.first ≤ n ∧ n ≤ s.last ∧ (n - s.first) % s.stride = 0 ∧ k = (n + s.shift).toNat := by
  unfold CaseShift.apply? at moved
  split at moved
  next within =>
    simp only [Bool.and_eq_true, decide_eq_true_eq, beq_iff_eq] at within
    exact ⟨within.1.1, within.1.2, within.2, (Option.some.inj moved).symm⟩
  next => cases moved

theorem CaseShift.landsIn_iff {lo hi : Nat} :
    s.landsIn (lo, hi) = true ↔ lo ≤ s.imageFirst ∧ s.imageLast ≤ hi := by
  simp [landsIn]

theorem CaseShift.image_bounds (moved : s.apply? n = some k) :
    s.imageFirst ≤ k ∧ k ≤ s.imageLast := by
  obtain ⟨first, last, -, rfl⟩ := eq_of_moved moved
  exact ⟨Int.toNat_le_toNat (by omega), Int.toNat_le_toNat (by omega)⟩

theorem CaseShift.kept_of_clears (clear : s.clears r = true) (visible : 0 < s.imageFirst)
    (moved : s.apply? n = some k) : r.apply? k = none := by
  obtain ⟨low, high⟩ := image_bounds moved
  obtain ⟨first, last, stride, image⟩ := eq_of_moved moved
  refine Option.eq_none_iff_forall_not_mem.2 fun j again => ?_
  obtain ⟨first', last', stride', -⟩ := eq_of_moved again
  simp only [clears, Bool.or_eq_true, Bool.and_eq_true, beq_iff_eq, Nat.blt_eq] at clear
  rcases clear with (before | behind) | ⟨⟨own, double⟩, odd⟩
  · omega
  · omega
  · -- Every second code point is moved by `r`, and `s` leads to those between.
    rw [double] at stride'
    have even : (n - s.first) % 2 = 0 := by
      rcases own with single | two
      · omega
      · rwa [two] at stride
    simp only [imageFirst] at visible odd
    omega

end Shifts

end Text

namespace Placeholder

open Text

section Letters

def Small (c : Char) : Prop := isWordPart c = true ∧ isAsciiUpper c = false

instance (c : Char) : Decidable (Small c) := inferInstanceAs (Decidable (_ ∧ _))

def Folded (c : Char) : Prop := Small c ∧ lowerChar c = [c]

instance (c : Char) : Decidable (Folded c) := inferInstanceAs (Decidable (_ ∧ _))

theorem folded_ascii : ∀ n < 128, isWordPart (Char.ofNat n) = true →
    Folded (Char.ofNat n).toLower := by
  decide +kernel

theorem folded_toLower {c : Char} (ascii : c.toNat < 128) (part : isWordPart c = true) :
    Folded c.toLower := by
  have folded := folded_ascii c.toNat ascii
  rw [Char.ofNat_toNat] at folded
  exact folded part

theorem folded_small : ∀ n ≤ 122, 97 ≤ n → Folded (Char.ofNat n) := by decide +kernel

theorem caseMap_lower {c : Char} (single : c.toNat ≠ 304) : caseMap lowerShifts longLower c =
    (lowerShifts.findSome? fun s => s.apply? c.toNat).elim [c] fun n => [Char.ofNat n] := by
  rw [caseMap]
  split
  next long => simp [longLower, single.symm] at long
  next => cases lowerShifts.findSome? fun s => s.apply? c.toNat <;> rfl

theorem isAsciiUpper_lt {c : Char} (capital : isAsciiUpper c = true) : c.toNat < 128 := by
  rw [isAsciiUpper, Bool.and_eq_true, decide_eq_true_eq, decide_eq_true_eq] at capital
  have low : c.toNat ≤ 90 := capital.2
  omega

theorem folded_of_kept {c : Char} (high : 128 ≤ c.toNat) (single : c.toNat ≠ 304)
    (part : isWordPart c = true) (kept : lowerShifts.findSome? (fun s => s.apply? c.toNat) = none) :
    Folded c := by
  refine ⟨⟨part, Bool.eq_false_iff.2 fun capital => ?_⟩, ?_⟩
  · exact absurd (isAsciiUpper_lt capital) (not_lt.2 high)
  · rw [lowerChar, if_neg (not_lt.2 high), caseMap_lower single, kept, Option.elim_none]

theorem folded_of_shift {s : CaseShift} {n k : Nat} (listed : s ∈ lowerShifts)
    (moved : s.apply? n = some k) : Folded (Char.ofNat k) := by
  obtain ⟨low, high⟩ := CaseShift.image_bounds moved
  have lands := List.all_eq_true.1 lowerShifts_land s listed
  rw [Bool.or_eq_true, CaseShift.landsIn_iff, List.any_eq_true] at lands
  rcases lands with small | ⟨⟨first, last⟩, range, inside⟩
  · exact folded_small k (by omega) (by omega)
  · rw [CaseShift.landsIn_iff] at inside
    obtain ⟨above, valid⟩ := alphanumericRanges_valid _ range
    simp only at above valid
    have code : (Char.ofNat k).toNat = k := by
      have scalar : k.isValidChar := valid.imp (by omega) fun ⟨_, _⟩ => ⟨by omega, by omega⟩
      rw [Char.ofNat, dif_pos scalar]
      rfl
    have single := lowerShifts_single s listed
    have alphanumeric : isAlphanumeric (Char.ofNat k) = true := by
      rw [isAlphanumeric, code, if_neg (by omega), inRanges, List.any_eq_true]
      exact ⟨_, range, by simp; omega⟩
    have kept : lowerShifts.findSome? (fun s => s.apply? k) = none := by
      rw [List.findSome?_eq_none_iff]
      intro r other
      have clear := List.all_eq_true.1 (List.all_eq_true.1 lowerShifts_clear s listed) r other
      exact CaseShift.kept_of_clears clear (by omega) moved
    refine folded_of_kept (by omega) (by omega) (by simp [isWordPart, alphanumeric]) ?_
    rwa [code]

theorem exists_lowerChar {c : Char} (part : isWordPart c = true) (other : c ≠ '\u0130') :
    ∃ d, lowerChar c = [d] ∧ Folded d := by
  by_cases ascii : c.toNat < 128
  next => exact ⟨_, by rw [lowerChar, if_pos ascii], folded_toLower ascii part⟩
  next =>
    have single : c.toNat ≠ 304 := fun same => other (Char.toNat_inj.1 same)
    cases moved : lowerShifts.findSome? (fun s => s.apply? c.toNat) with
    | none =>
      have folded := folded_of_kept (not_lt.1 ascii) single part moved
      exact ⟨c, folded.2, folded⟩
    | some k =>
      obtain ⟨s, listed, own⟩ := List.exists_of_findSome?_eq_some moved
      exact ⟨_, by rw [lowerChar, if_neg ascii, caseMap_lower single, moved, Option.elim_some],
        folded_of_shift listed own⟩

end Letters

section Collapse

def Separate (c d : Char) : Prop := ¬ (c = '_' ∧ d = '_')

instance : DecidableRel Separate := fun _ _ => inferInstanceAs (Decidable (¬ _))

theorem collapseUnderscores_cons (c d : Char) (t : Text) :
    collapseUnderscores (c :: d :: t) =
      if Separate c d then c :: collapseUnderscores (d :: t) else collapseUnderscores (d :: t) := by
  split
  next apart =>
    rw [collapseUnderscores]
    · simp
    · rintro r rfl same
      exact apart ⟨rfl, List.head_eq_of_cons_eq same⟩
  next double =>
    obtain ⟨rfl, rfl⟩ := not_not.1 double
    rfl

theorem collapseUnderscores_eq (t : Text) : collapseUnderscores t = t.destutter Separate := by
  cases t with
  | nil => rfl
  | cons c t =>
    induction t generalizing c with
    | nil => by_cases joint : c = '_' <;> simp [collapseUnderscores, joint]
    | cons d t ih =>
      rw [collapseUnderscores_cons, ih, List.destutter_cons_cons]
      split
      next => rfl
      next double =>
        obtain ⟨rfl, rfl⟩ := not_not.1 double
        rfl

theorem exists_collapseUnderscores (c : Char) (t : Text) :
    ∃ r, collapseUnderscores (c :: t) = c :: r := by
  induction t generalizing c with
  | nil => exact ⟨[], by rw [collapseUnderscores_eq]; rfl⟩
  | cons d t ih =>
    rw [collapseUnderscores_cons]
    split
    next => exact ⟨_, rfl⟩
    next double =>
      obtain ⟨rfl, rfl⟩ := not_not.1 double
      exact ih '_'

theorem no_double_of_chain {t : Text} (chain : t.IsChain Separate) : ¬ ['_', '_'] <:+: t :=
  fun double => by
    have pair := chain.infix double
    simp [Separate] at pair

end Collapse

section Names

variable {t : Text} {c : Char}

theorem snakeNext_small : ∀ d ∈ snakeNext c, Small d := by
  rw [snakeNext]
  split
  next => exact List.forall_mem_singleton.2 (by decide)
  next part =>
    rw [Bool.not_eq_true, Bool.not_eq_false'] at part
    split
    next capital =>
      have folded := folded_toLower (isAsciiUpper_lt capital) part
      exact List.forall_mem_cons.2 ⟨by decide, List.forall_mem_singleton.2 folded.1⟩
    next other => exact List.forall_mem_singleton.2 ⟨part, Bool.not_eq_true _ ▸ other⟩

theorem snakeNext_of_small (small : Small c) : snakeNext c = [c] := by
  simp [snakeNext, small.1, small.2]

theorem snakeFirst_of_folded (folded : Folded c) : snakeFirst c = [c] := by
  rw [snakeFirst, if_pos folded.1.1, folded.2]

theorem snakeFirst_dotted : snakeFirst '\u0130' = ['i', '\u0307'] := by decide +kernel

theorem exists_snakeFirst (other : c ≠ '\u0130') : ∃ d, snakeFirst c = [d] ∧ Folded d := by
  rw [snakeFirst]
  split
  next part => exact exists_lowerChar part other
  next => exact ⟨'_', rfl, by decide⟩

/-- A text that is in snake case already. -/
structure SnakeCased (t : Text) : Prop where
  small : ∀ c ∈ t, Small c
  single : t.IsChain Separate
  folded : ∀ c ∈ t.head?, Folded c

theorem SnakeCased.snakeCase_map (cased : SnakeCased t) {f : Char → Char}
    (first : ∀ c, Folded c → snakeFirst (f c) = [c]) (next : ∀ c, Small c → snakeNext (f c) = [c]) :
    snakeCase (t.map f) = t := by
  cases t with
  | nil => rfl
  | cons c t =>
    have later : (t.map f).flatMap snakeNext = t := by
      rw [List.flatMap_map]
      have same := List.flatMap_congr fun d member =>
        next d (cased.small d (List.mem_cons_of_mem c member))
      rw [same, List.flatMap_singleton']
    rw [List.map_cons, snakeCase, first c (cased.folded c rfl), later, List.singleton_append,
      collapseUnderscores_eq, List.destutter_of_isChain _ _ cased.single]

theorem SnakeCased.snakeCase_eq (cased : SnakeCased t) : snakeCase t = t := by
  have same := cased.snakeCase_map (f := id) (fun _ => snakeFirst_of_folded)
    fun _ => snakeNext_of_small
  rwa [List.map_id] at same

theorem SnakeCased.snakeCase_hyphenate (cased : SnakeCased t) : snakeCase (hyphenate t) = t := by
  refine cased.snakeCase_map (fun c folded => ?_) fun c small => ?_
  · split
    next joint => rw [joint]; rfl
    next => exact snakeFirst_of_folded folded
  · split
    next joint => rw [joint]; rfl
    next => exact snakeNext_of_small small

theorem snakeCase_single (t : Text) : (snakeCase t).IsChain Separate := by
  cases t with
  | nil => exact .nil
  | cons c t =>
    rw [snakeCase, collapseUnderscores_eq]
    exact List.isChain_destutter _ _

theorem mem_snakeCase {d : Char} (member : d ∈ snakeCase (c :: t)) :
    d ∈ snakeFirst c ∨ Small d := by
  rw [snakeCase, collapseUnderscores_eq] at member
  refine (List.mem_append.1 ((List.destutter_sublist _ _).subset member)).imp_right fun later => ?_
  obtain ⟨x, -, next⟩ := List.mem_flatMap.1 later
  exact snakeNext_small d next

theorem snakeCased_snakeCase (other : t.head? ≠ some '\u0130') : SnakeCased (snakeCase t) := by
  cases t with
  | nil => exact ⟨by simp [snakeCase], .nil, by simp [snakeCase]⟩
  | cons c t =>
    obtain ⟨d, first, folded⟩ := exists_snakeFirst (c := c) fun same => other (congrArg some same)
    refine ⟨fun x member => ?_, snakeCase_single _, ?_⟩
    · refine (mem_snakeCase member).elim (fun start => ?_) id
      rw [first, List.mem_singleton] at start
      exact start ▸ folded.1
    · obtain ⟨r, starts⟩ := exists_collapseUnderscores d (t.flatMap snakeNext)
      rw [snakeCase, first, List.singleton_append, starts]
      rintro x ⟨⟩
      exact folded

theorem snakeCase_no_upper (t : Text) : ∀ c ∈ snakeCase t, isAsciiUpper c = false := by
  cases t with
  | nil => simp [snakeCase]
  | cons c t =>
    refine fun x member => (mem_snakeCase member).elim (fun start => ?_) And.right
    -- The dot is no capital either, so this holds of every text.
    by_cases dotted : c = '\u0130'
    next =>
      rw [dotted, snakeFirst_dotted] at start
      have small : ∀ y ∈ ['i', '\u0307'], isAsciiUpper y = false :=
        List.forall_mem_cons.2 ⟨rfl, List.forall_mem_singleton.2 rfl⟩
      exact small x start
    next =>
      obtain ⟨d, first, folded⟩ := exists_snakeFirst dotted
      rw [first, List.mem_singleton] at start
      exact start ▸ folded.1.2

end Names

section Dotted

variable (t : Text)

theorem snakeCase_dotted : ∃ r, snakeCase ('\u0130' :: t) = 'i' :: '\u0307' :: r := by
  obtain ⟨r, shape⟩ := exists_collapseUnderscores '\u0307' (t.flatMap snakeNext)
  refine ⟨r, ?_⟩
  rw [snakeCase, snakeFirst_dotted]
  change collapseUnderscores ('i' :: '\u0307' :: t.flatMap snakeNext) = _
  rw [collapseUnderscores_cons, if_pos (by decide), shape]

theorem snakeCase_of_dotted : ∃ r, snakeCase ('i' :: '\u0307' :: t) = 'i' :: '_' :: r := by
  obtain ⟨r, shape⟩ := exists_collapseUnderscores '_' (t.flatMap snakeNext)
  refine ⟨r, ?_⟩
  have first : snakeFirst 'i' = ['i'] := by decide +kernel
  have next : snakeNext '\u0307' = ['_'] := by decide +kernel
  rw [snakeCase, first, List.flatMap_cons, next]
  change collapseUnderscores ('i' :: '_' :: t.flatMap snakeNext) = _
  rw [collapseUnderscores_cons, if_pos (by decide), shape]

end Dotted

theorem case_filters_stable (t : Text) :
    ¬ ['_', '_'] <:+: snakeCase t ∧ (∀ c ∈ snakeCase t, isAsciiUpper c = false) ∧
      ((∀ c ∈ snakeCase t, isAlphanumeric c = true ∨ c = '_') ↔ t.head? ≠ some '\u0130') ∧
      (snakeCase (snakeCase t) = snakeCase t ↔ t.head? ≠ some '\u0130') ∧
      (hyphens (hyphens t) = hyphens t ↔ t.head? ≠ some '\u0130') ∧
      (hyphens (snakeCase t) = hyphens t ↔ t.head? ≠ some '\u0130') ∧
      (snakeCase (hyphens t) = snakeCase t ↔ t.head? ≠ some '\u0130') := by
  refine ⟨no_double_of_chain (snakeCase_single t), snakeCase_no_upper t, ?_⟩
  by_cases dotted : t.head? = some '\u0130'
  next =>
    obtain ⟨t, rfl⟩ := List.head?_eq_some_iff.1 dotted
    obtain ⟨r, shape⟩ := snakeCase_dotted t
    obtain ⟨s, again⟩ := snakeCase_of_dotted r
    obtain ⟨s', again'⟩ := snakeCase_of_dotted (hyphenate r)
    have shape' : hyphens ('\u0130' :: t) = 'i' :: '\u0307' :: hyphenate r := by
      rw [hyphens, shape]
      rfl
    have strange : isAlphanumeric '\u0307' = false := by decide +kernel
    have joint (u : Text) : hyphenate ('i' :: '_' :: u) = 'i' :: '-' :: hyphenate u := rfl
    rw [shape', shape, hyphens, hyphens, again, again', joint, joint]
    simp [strange]
  next =>
    have cased := snakeCased_snakeCase dotted
    have same : snakeCase (hyphens t) = snakeCase t := cased.snakeCase_hyphenate
    refine ⟨⟨fun _ => dotted, fun _ c member => ?_⟩, ?_⟩
    · simpa [isWordPart] using (cased.small c member).1
    · have twice := cased.snakeCase_eq
      simp only [hyphens] at same ⊢
      simp [same, twice, dotted]

theorem case_filters_dotted :
    let t : Text := "\u0130x"
    snakeCase t = "i\u0307x" ∧ snakeCase (snakeCase t) = "i_x" ∧ hyphens (snakeCase t) = "i-x" ∧
      hyphens t = "i\u0307x" ∧ isAlphanumeric '\u0307' = false := by
  decide +kernel

end Placeholder

end Docspec
