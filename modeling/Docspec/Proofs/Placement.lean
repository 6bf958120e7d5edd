import Docspec.Proofs.Regions
import Docspec.Proofs.TreeShape

set_option autoImplicit false

namespace Docspec

namespace TestTree

def level (t : TestTree) (i : Nat) : Nat := (t.getD i).level

theorem level_eq (t : TestTree) (i : Nat) :
    t.level i = (t.cases.map TestCase.level).getD i 0 := by
  rw [level, getD, get?, List.getD_eq_getElem?_getD, List.getElem?_map]
  cases t.cases[i]? <;> rfl

/-- Case `p` is the last one before `i` that is less deep, or the document if none is. -/
structure LastLower (t : TestTree) (i p : Nat) : Prop where
  before : p < i
  lower : p = 0 ∨ t.level p < t.level i
  between : ∀ j, p < j → j < i → t.level i ≤ t.level j

structure Outlined (t : TestTree) : Prop where
  nonempty : 0 < t.size
  document : (t.getD 0).parent = none
  nearest : ∀ i, 0 < i → i < t.size → ∃ p, (t.getD i).parent = some p ∧ t.LastLower i p

theorem getD_addChild (t : TestTree) (parent : Nat) (name : Text) (level i : Nat) :
    (t.addChild parent name level).getD i =
      if i = t.size then ⟨name, level, .notStarted, [], some parent⟩ else t.getD i := by
  rcases Nat.lt_trichotomy i t.size with inside | rfl | outside
  · rw [if_neg (Nat.ne_of_lt inside), getD, get?, addChild, List.getElem?_append_left inside]
    rfl
  · rw [if_pos rfl, getD, get?, addChild, size, List.getElem?_concat_length]
    rfl
  · have beyond : (t.addChild parent name level).get? i = none :=
      List.getElem?_eq_none (by simpa [addChild, size] using Nat.succ_le_of_lt outside)
    have absent : t.get? i = none := List.getElem?_eq_none (Nat.le_of_lt outside)
    rw [if_neg (Nat.ne_of_gt outside), getD, getD, beyond, absent]

theorem getD_addCommand {t : TestTree} {i : Nat} (inside : i < t.size) (c : Command) (j : Nat) :
    (t.addCommand i c).getD j =
      if i = j then { t.getD j with commands := (t.getD j).commands ++ [c] } else t.getD j := by
  have found : t.get? i = some t.cases[i] := List.getElem?_eq_getElem inside
  rw [getD, addCommand, get?_modify]
  by_cases same : i = j
  next =>
    subst same
    simp [getD, found]
  next => simp [getD, same]

theorem level_addChild_of_lt {t : TestTree} {i : Nat} (inside : i < t.size) (parent : Nat)
    (name : Text) (level : Nat) : (t.addChild parent name level).level i = t.level i := by
  rw [TestTree.level, getD_addChild, if_neg (Nat.ne_of_lt inside)]
  rfl

theorem size_addChild (t : TestTree) (parent : Nat) (name : Text) (level : Nat) :
    (t.addChild parent name level).size = t.size + 1 := by
  simp [size, addChild]

namespace Outlined

variable {t : TestTree}

theorem new : TestTree.new.Outlined where
  nonempty := by decide
  document := rfl
  nearest i positive inside := by
    change i < 1 at inside
    omega

theorem addChild (outlined : t.Outlined) {p level : Nat} (name : Text) (before : p < t.size)
    (lower : p = 0 ∨ t.level p < level)
    (between : ∀ j, p < j → j < t.size → level ≤ t.level j) :
    (t.addChild p name level).Outlined where
  nonempty := by
    rw [size_addChild]
    exact Nat.succ_pos _
  document := by
    rw [getD_addChild, if_neg (Nat.ne_of_lt outlined.nonempty), outlined.document]
  nearest i positive inside := by
    rw [size_addChild] at inside
    have old {j : Nat} (earlier : j < t.size) := level_addChild_of_lt earlier p name level
    by_cases last : i = t.size
    next =>
      subst last
      have added : (t.addChild p name level).level t.size = level := by
        rw [TestTree.level, getD_addChild, if_pos rfl]
      refine ⟨p, by rw [getD_addChild, if_pos rfl], before, ?_, fun j after earlier => ?_⟩
      · rwa [added, old before]
      · rw [added, old earlier]
        exact between j after earlier
    next =>
      have earlier : i < t.size := by omega
      obtain ⟨q, parent, holds⟩ := outlined.nearest i positive earlier
      refine ⟨q, by rw [getD_addChild, if_neg last, parent], holds.before, ?_, fun j after le => ?_⟩
      · rw [old earlier, old (Nat.lt_trans holds.before earlier)]
        exact holds.lower
      · rw [old earlier, old (Nat.lt_trans le earlier)]
        exact holds.between j after le

theorem addCommand (outlined : t.Outlined) {i : Nat} (inside : i < t.size) (c : Command) :
    (t.addCommand i c).Outlined := by
  have kept (j : Nat) : (t.addCommand i c).level j = t.level j ∧
      ((t.addCommand i c).getD j).parent = (t.getD j).parent := by
    rw [TestTree.level, getD_addCommand inside]
    split <;> exact ⟨rfl, rfl⟩
  have size : (t.addCommand i c).size = t.size := size_modify t i _
  refine ⟨size ▸ outlined.nonempty, (kept 0).2.trans outlined.document, ?_⟩
  intro j positive earlier
  obtain ⟨p, parent, holds⟩ := outlined.nearest j positive (size ▸ earlier)
  refine ⟨p, (kept j).2.trans parent, holds.before, ?_, fun k after before => ?_⟩
  · rw [(kept p).1, (kept j).1]
    exact holds.lower
  · rw [(kept j).1, (kept k).1]
    exact holds.between k after before

theorem rooted (outlined : t.Outlined) : t.Rooted where
  nonempty := outlined.nonempty
  parent i n positive found := by
    obtain ⟨p, parent, holds⟩ :=
      outlined.nearest i positive (List.getElem?_eq_some_iff.1 found).1
    rw [getD, found] at parent
    exact ⟨p, holds.before, parent⟩

theorem lastLower_of_mem (outlined : t.Outlined) {i j : Nat} (member : j ∈ t.children i) :
    t.LastLower j i := by
  obtain ⟨before, n, found, parent⟩ := mem_children.1 member
  obtain ⟨p, parent', holds⟩ := outlined.nearest j (by omega) (lt_size_of_mem_children member).2
  rw [getD, found] at parent'
  obtain rfl : p = i := Option.some.inj (parent'.symm.trans parent)
  exact holds

theorem mem_children_iff (outlined : t.Outlined) (i j : Nat) :
    j ∈ t.children i ↔ (t.getD j).parent = some i := by
  constructor
  · intro member
    obtain ⟨-, n, found, parent⟩ := mem_children.1 member
    rw [getD, found]
    exact parent
  · intro parent
    have known : t.get? j ≠ none := fun none => by
      rw [getD, none] at parent
      cases parent
    obtain ⟨n, found⟩ := Option.ne_none_iff_exists'.1 known
    have positive : 0 < j := Nat.pos_of_ne_zero fun first => by
      rw [first, outlined.document] at parent
      cases parent
    obtain ⟨p, parent', holds⟩ :=
      outlined.nearest j positive (List.getElem?_eq_some_iff.1 found).1
    obtain rfl : p = i := Option.some.inj (parent'.symm.trans parent)
    rw [getD, found] at parent
    exact mem_children.2 ⟨holds.before, n, found, parent⟩

theorem level_lt (outlined : t.Outlined) {i j k : Nat} (positive : 0 < i) (below : t.Below i j)
    (after : i < k) (upTo : k ≤ j) : t.level i < t.level k := by
  induction below generalizing k with
  | self => omega
  | @child m j upper member ih =>
    have above : i ≤ m := upper.le
    have holds := outlined.lastLower_of_mem member
    by_cases within : k ≤ m
    next => exact ih after within
    next =>
      -- The parent is not less deep than the upper case, and what follows it up to `j` is no less
      -- deep than `j`.
      have deeper : t.level m < t.level j := holds.lower.resolve_left (by omega)
      have reached : t.level i ≤ t.level m := by
        rcases Nat.eq_or_lt_of_le above with rfl | lower
        · exact Nat.le_refl _
        · exact Nat.le_of_lt (ih lower (Nat.le_refl m))
      have later : t.level j ≤ t.level k := by
        rcases Nat.eq_or_lt_of_le upTo with rfl | earlier
        · exact Nat.le_refl _
        · exact holds.between k (by omega) earlier
      omega

theorem subtree_lt (outlined : t.Outlined) {i j k m : Nat} (left : j ∈ t.children i)
    (right : k ∈ t.children i) (before : j < k) (below : t.Below j m) : m < k := by
  by_contra reached
  obtain ⟨after, -⟩ := mem_children.1 left
  have deeper := outlined.level_lt (by omega) below before (Nat.le_of_not_lt reached)
  have between := (outlined.lastLower_of_mem right).between j after before
  omega

theorem subtree_sorted (outlined : t.Outlined) (i : Nat) : (t.subtree i).Pairwise (· < ·) := by
  induction i using t.children_induction with
  | step i ih =>
    rw [subtree_eq, List.pairwise_cons, List.pairwise_flatMap]
    refine ⟨?_, ih, ?_⟩
    · intro j inside
      obtain ⟨child, isChild, below⟩ := List.mem_flatMap.1 inside
      exact Nat.lt_of_lt_of_le (mem_children.1 isChild).1 (mem_subtree.1 below).le
    · refine (children_sorted t i).imp_of_mem ?_
      intro j k left right before m inLeft m' inRight
      have earlier := outlined.subtree_lt left right before (mem_subtree.1 inLeft)
      exact Nat.lt_of_lt_of_le earlier (mem_subtree.1 inRight).le

theorem walk_eq (outlined : t.Outlined) :
    t.walk.map Prod.snd = List.range' 1 (t.size - 1) := by
  have same : t.subtree 0 = List.range t.size := by
    refine (outlined.subtree_sorted 0).eq_of_mem_iff List.pairwise_lt_range fun i => ?_
    exact (subtree_root_perm outlined.rooted).mem_iff
  obtain ⟨n, size⟩ : ∃ n, t.size = n + 1 := ⟨t.size - 1, by have := outlined.nonempty; omega⟩
  rw [subtree_root, size, List.range_eq_range', List.range'_succ] at same
  rw [size]
  exact (List.cons.inj same).2

end Outlined

end TestTree

structure Heading where
  level : Nat
  name : Text
deriving DecidableEq

def TestCase.heading (c : TestCase) : Heading := ⟨c.level, c.name⟩

def Region.heading? : Region → Option Heading
  | heading start title _ => some ⟨start.level, Text.trim (Compiler.paragraphs title)⟩
  | _ => none

def headings (rs : List Region) : List Heading := rs.filterMap Region.heading?

theorem TestTree.headings_addCommand (t : TestTree) (i : Nat) (c : Command) :
    (t.addCommand i c).cases.map TestCase.heading = t.cases.map TestCase.heading := by
  apply List.ext_getElem?
  intro j
  rw [List.getElem?_map, List.getElem?_map]
  change ((t.modify i _).get? j).map _ = (t.get? j).map _
  rw [get?_modify, Option.map_map]
  congr 1
  funext n
  change TestCase.heading (if i = j then _ else n) = _
  split <;> rfl

namespace Compiler

open TestTree

-- Going up from a case comes to the last case up to it that is less deep: what is between a case
-- and its parent is no less deep than the case.
theorem placement_lastLower {t : TestTree} (outlined : t.Outlined) (level : Nat) {fuel i : Nat}
    (enough : i < fuel) (inside : i < t.size) :
    placement t level fuel i ≤ i ∧
      (placement t level fuel i = 0 ∨ t.level (placement t level fuel i) < level) ∧
      ∀ j, placement t level fuel i < j → j ≤ i → level ≤ t.level j := by
  induction fuel generalizing i with
  | zero => omega
  | succ fuel ih =>
    rw [placement]
    split
    next lower => exact ⟨Nat.le_refl i, .inr lower, fun j after upTo => by omega⟩
    next deep =>
      rcases Nat.eq_zero_or_pos i with rfl | positive
      · rw [outlined.document]
        exact ⟨Nat.le_refl 0, .inl rfl, fun j after upTo => by omega⟩
      · obtain ⟨p, parent, holds⟩ := outlined.nearest i positive inside
        rw [parent]
        obtain ⟨before, lower, between⟩ :=
          ih (i := p) (by have := holds.before; omega) (Nat.lt_trans holds.before inside)
        refine ⟨Nat.le_trans before (Nat.le_of_lt holds.before), lower, fun j after upTo => ?_⟩
        have reached : level ≤ t.level i := Nat.le_of_not_lt deep
        rcases Nat.lt_trichotomy p j with later | rfl | earlier
        · rcases Nat.eq_or_lt_of_le upTo with rfl | inner
          · exact reached
          · exact Nat.le_trans reached (holds.between j later inner)
        · exact between p after (Nat.le_refl p)
        · exact between j after (Nat.le_of_lt earlier)

theorem compileRegions_outlined {catalog : Catalog} {source : Text} {t t' : TestTree}
    {current : Nat} {rs : List Region} (outlined : t.Outlined) (last : current + 1 = t.size)
    (compiled : compileRegions catalog source t current rs = .ok t') :
    t'.Outlined ∧
      t'.cases.map TestCase.heading = t.cases.map TestCase.heading ++ headings rs := by
  induction rs generalizing t current with
  | nil =>
    obtain rfl : t = t' := Except.ok.inj compiled
    exact ⟨outlined, by simp [headings]⟩
  | cons r rest ih =>
    cases r with
    | heading start title stop =>
      have inside : current < t.size := by omega
      obtain ⟨upTo, lower, between⟩ := placement_lastLower outlined start.level inside inside
      have added := outlined.addChild (Text.trim (paragraphs title)) (by omega) lower
        fun j after before => between j after (by omega)
      obtain ⟨outlined', cases⟩ := ih added (size_addChild _ _ _ _).symm compiled
      refine ⟨outlined', ?_⟩
      rw [cases]
      simp [TestTree.addChild, headings, Region.heading?, TestCase.heading]
    | quote start quoted stop =>
      rw [compileRegions] at compiled
      split at compiled
      next => cases compiled
      next c called =>
        have size : (t.addCommand current c).size = t.size := size_modify t current _
        obtain ⟨outlined', cases⟩ :=
          ih (outlined.addCommand (by omega) c) (last.trans size.symm) compiled
        exact ⟨outlined', by rw [cases, headings_addCommand]; rfl⟩
    | loose k => exact ih outlined last compiled

theorem compile_places_headings {catalog : Catalog} {source : Text} {ts : List Token}
    {t : TestTree} (compiled : compile catalog source ts = .ok t) :
    t.cases.map TestCase.heading = TestTree.root.heading :: headings (regions ts) ∧
      (t.getD 0).parent = none ∧
      (∀ i, 0 < i → i < t.size → ∃ p, (t.getD i).parent = some p ∧ t.LastLower i p) ∧
      (∀ i, (t.children i).Pairwise (· < ·) ∧
        ∀ j, j ∈ t.children i ↔ (t.getD j).parent = some i) ∧
      t.walk.map Prod.snd = List.range' 1 (headings (regions ts)).length := by
  rw [compile_eq] at compiled
  obtain ⟨outlined, cases⟩ := compileRegions_outlined .new rfl compiled
  have count : t.size - 1 = (headings (regions ts)).length := by
    have length := congrArg List.length cases
    simp only [List.length_map, List.length_append] at length
    change t.size = 1 + _ at length
    omega
  refine ⟨cases, outlined.document, outlined.nearest, fun i => ⟨children_sorted t i, ?_⟩, ?_⟩
  · exact outlined.mem_children_iff i
  · rw [outlined.walk_eq, count]

theorem compile_places_headings_skipped :
    let ts : List Token :=
      [.bare (.headingOpen 2) 1, .bare (.headingOpen 1) 1, .bare (.headingClose 2) 1,
        .bare (.headingOpen 4) 2, .bare (.headingClose 4) 2, .bare (.headingOpen 3) 3,
        .bare (.headingClose 3) 3, .bare (.headingOpen 0) 4]
    ∃ t, compile .builtin unnamed ts = .ok t ∧ t.cases.map TestCase.level = [0, 2, 4, 3, 0] ∧
      (t.getD 3).parent = some 1 ∧ t.walk.map Prod.snd = [1, 2, 3, 4] := by
  intro ts
  have parts : headings (regions ts) = [⟨2, []⟩, ⟨4, []⟩, ⟨3, []⟩, ⟨0, []⟩] := by
    simp [ts, regions, Token.bare, Token.kind, Token.isHeadingClose]
    rfl
  obtain ⟨t, compiled⟩ : ∃ t, compile .builtin unnamed ts = .ok t := by
    rw [compile_eq]
    simp [ts, regions, Token.bare, Token.kind, Token.isHeadingClose]
    exact ⟨_, rfl⟩
  obtain ⟨cases, -, nearest, -, walk⟩ := compile_places_headings compiled
  rw [parts] at cases walk
  have levels : t.cases.map TestCase.level = [0, 2, 4, 3, 0] := by
    have depths := congrArg (List.map Heading.level) cases
    rw [List.map_map] at depths
    exact depths
  have size : t.size = 5 := by simpa [TestTree.size] using congrArg List.length levels
  have depth (i : Nat) : t.level i = [0, 2, 4, 3, 0].getD i 0 := by rw [level_eq, levels]
  obtain ⟨p, parent, before, lower, between⟩ := nearest 3 (by decide) (by omega)
  refine ⟨t, compiled, levels, ?_, walk⟩
  obtain rfl | rfl | rfl : p = 0 ∨ p = 1 ∨ p = 2 := by omega
  · have above := between 1 (by decide) (by decide)
    simp [depth] at above
  · exact parent
  · simp [depth] at lower

end Compiler

end Docspec
