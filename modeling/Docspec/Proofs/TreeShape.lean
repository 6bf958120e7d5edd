import Docspec.TestTree
import Mathlib.Data.List.Nodup
import Mathlib.Data.List.Sort

set_option autoImplicit false

namespace Docspec.TestTree

/-- Trees made by the operations on trees, cases being added and changed under numbers in use. -/
inductive Built : TestTree → Prop
  | new : Built .new
  | addChild {t : TestTree} {parent : Nat} (name : Text) (level : Nat) :
    Built t → parent < t.size → Built (t.addChild parent name level)
  | addCommand {t : TestTree} {i : Nat} (c : Command) :
    Built t → i < t.size → Built (t.addCommand i c)
  | setStatus {t : TestTree} {i : Nat} (s : Status) :
    Built t → i < t.size → Built (t.setStatus i s)
  | reset {t : TestTree} : Built t → Built t.reset

structure Rooted (t : TestTree) : Prop where
  nonempty : 0 < t.size
  parent : ∀ i n, 0 < i → t.get? i = some n → ∃ p, p < i ∧ n.parent = some p

inductive Below (t : TestTree) (i : Nat) : Nat → Prop
  | self : Below t i i
  | child {j k : Nat} : Below t i j → k ∈ t.children j → Below t i k

def subtree (t : TestTree) (i : Nat) : List Nat := (t.walkFrom 0 i).map Prod.snd

def lineage (t : TestTree) (i : Nat) : List Nat :=
  match (t.getD i).parent with
  | some p => if p < i then t.lineage p ++ [p] else []
  | none => []
termination_by i

theorem get?_modify (t : TestTree) (i j : Nat) (f : TestCase → TestCase) :
    (t.modify i f).get? j = (t.get? j).map fun n => if i = j then f n else n := by
  simp [get?, modify, List.getElem?_modify]

theorem get?_reset (t : TestTree) (i : Nat) :
    t.reset.get? i = (t.get? i).map fun n => { n with status := .notStarted } := by
  rw [get?, reset, List.getElem?_map]
  rfl

theorem size_modify (t : TestTree) (i : Nat) (f : TestCase → TestCase) :
    (t.modify i f).size = t.size := by
  simp [size, modify]

theorem Rooted.modify {t : TestTree} (rooted : t.Rooted) (i : Nat) {f : TestCase → TestCase}
    (kept : ∀ n, (f n).parent = n.parent) : (t.modify i f).Rooted where
  nonempty := by
    rw [size_modify]
    exact rooted.nonempty
  parent := by
    intro j n positive found
    rw [get?_modify] at found
    obtain ⟨old, oldFound, rfl⟩ := Option.map_eq_some_iff.1 found
    obtain ⟨p, before, parent⟩ := rooted.parent j old positive oldFound
    refine ⟨p, before, ?_⟩
    split
    next => rw [kept, parent]
    next => exact parent

theorem Built.rooted {t : TestTree} (built : t.Built) : t.Rooted := by
  induction built with
  | new =>
    refine ⟨by decide, ?_⟩
    intro i n positive found
    have outside : TestTree.new.get? i = none := List.getElem?_eq_none positive
    exact absurd (outside.symm.trans found) (by simp)
  | @addChild t parent name level _ inside rooted =>
    refine ⟨by simp [size, TestTree.addChild], ?_⟩
    intro i n positive found
    by_cases old : i < t.size
    next =>
      rw [get?, TestTree.addChild, List.getElem?_append_left old] at found
      exact rooted.parent i n positive found
    next =>
      rw [get?, TestTree.addChild, List.getElem?_append_right (Nat.le_of_not_lt old)] at found
      obtain rfl := List.mem_singleton.1 (List.mem_of_getElem? found)
      exact ⟨parent, Nat.lt_of_lt_of_le inside (Nat.le_of_not_lt old), rfl⟩
  | addCommand c _ _ rooted => exact rooted.modify _ fun _ => rfl
  | setStatus s _ _ rooted => exact rooted.modify _ fun _ => rfl
  | @reset t _ rooted =>
    refine ⟨by simpa [size, TestTree.reset] using rooted.nonempty, ?_⟩
    intro i n positive found
    rw [get?_reset] at found
    obtain ⟨old, oldFound, rfl⟩ := Option.map_eq_some_iff.1 found
    exact rooted.parent i old positive oldFound

-- Induction from the leaves of a tree up.
theorem children_induction (t : TestTree) {motive : Nat → Prop}
    (step : ∀ i, (∀ j ∈ t.children i, motive j) → motive i) (i : Nat) : motive i := by
  induction distance : t.size - i using Nat.strongRecOn generalizing i with
  | ind n ih =>
    apply step
    intro j member
    have later := lt_size_of_mem_children member
    exact ih (t.size - j) (by omega) j rfl

theorem parent_unique {t : TestTree} {i j k : Nat} (left : k ∈ t.children i)
    (right : k ∈ t.children j) : i = j := by
  obtain ⟨-, n, found, parent⟩ := mem_children.1 left
  obtain ⟨-, n', found', parent'⟩ := mem_children.1 right
  obtain rfl : n = n' := Option.some.inj (found.symm.trans found')
  exact Option.some.inj (parent.symm.trans parent')

namespace Below

variable {t : TestTree} {i j k : Nat}

theorem le (below : t.Below i j) : i ≤ j := by
  induction below with
  | self => exact Nat.le_refl i
  | child _ member ih => exact Nat.le_trans ih (Nat.le_of_lt (mem_children.1 member).1)

theorem trans (upper : t.Below i j) (lower : t.Below j k) : t.Below i k := by
  induction lower with
  | self => exact upper
  | child _ member ih => exact .child ih member

theorem inside (below : t.Below i j) (first : i < t.size) : j < t.size := by
  cases below with
  | self => exact first
  | child _ member => exact (lt_size_of_mem_children member).2

theorem of_child (member : j ∈ t.children i) : t.Below i j := .child .self member

theorem comparable (left : t.Below i k) (right : t.Below j k) : t.Below i j ∨ t.Below j i := by
  induction left with
  | self => exact .inr right
  | @child m k upper member ih =>
    -- The last step of either chain leaves the one parent `k` has.
    cases right with
    | self => exact .inl (.child upper member)
    | child upper' member' => exact ih (parent_unique member' member ▸ upper')

theorem parent_of_ne (below : t.Below i k) (differ : i ≠ k) (member : k ∈ t.children j) :
    t.Below i j := by
  cases below with
  | self => exact absurd rfl differ
  | child upper member' => exact parent_unique member' member ▸ upper

theorem child_unique {m : Nat} (left : j ∈ t.children i) (right : k ∈ t.children i)
    (inLeft : t.Below j m) (inRight : t.Below k m) : j = k := by
  by_contra differ
  rcases comparable inLeft inRight with below | below
  · have above := (below.parent_of_ne differ right).le
    have later := (mem_children.1 left).1
    omega
  · have above := (below.parent_of_ne (Ne.symm differ) left).le
    have later := (mem_children.1 right).1
    omega

end Below

theorem below_root {t : TestTree} (rooted : t.Rooted) {i : Nat} (inside : i < t.size) :
    t.Below 0 i := by
  induction i using Nat.strongRecOn with
  | ind i ih =>
    rcases Nat.eq_zero_or_pos i with rfl | positive
    · exact .self
    · have found : t.get? i = some t.cases[i] := List.getElem?_eq_getElem inside
      obtain ⟨p, before, parent⟩ := rooted.parent i _ positive found
      have member : i ∈ t.children p := mem_children.2 ⟨before, _, found, parent⟩
      exact .child (ih p before (Nat.lt_trans before inside)) member

theorem lineage_root (t : TestTree) : t.lineage 0 = [] := by
  rw [lineage]
  split <;> simp

theorem lineage_child {t : TestTree} {i j : Nat} (member : j ∈ t.children i) :
    t.lineage j = t.lineage i ++ [i] := by
  obtain ⟨before, n, found, parent⟩ := mem_children.1 member
  have known : (t.getD j).parent = some i := by rw [getD, found, Option.getD_some, parent]
  rw [lineage, known]
  simp [before]

theorem walkFrom_eq (t : TestTree) (depth i : Nat) :
    t.walkFrom depth i = (depth, i) :: (t.children i).flatMap (t.walkFrom (depth + 1)) := by
  rw [walkFrom]
  simp

theorem walkFrom_map_snd (t : TestTree) (depth i : Nat) :
    (t.walkFrom depth i).map Prod.snd = t.subtree i := by
  induction i using t.children_induction generalizing depth with
  | step i ih =>
    rw [subtree, walkFrom_eq, walkFrom_eq, List.map_cons, List.map_cons, List.map_flatMap,
      List.map_flatMap]
    congr 1
    apply List.flatMap_congr
    intro j member
    rw [ih j member, ih j member]

theorem subtree_eq (t : TestTree) (i : Nat) :
    t.subtree i = i :: (t.children i).flatMap t.subtree := by
  rw [subtree, walkFrom_eq, List.map_cons, List.map_flatMap]
  simp only [walkFrom_map_snd]

theorem subtree_root (t : TestTree) : t.subtree 0 = 0 :: t.walk.map Prod.snd := by
  rw [subtree_eq, walk, List.map_flatMap]
  simp only [walkFrom_map_snd]

theorem subtree_closed {t : TestTree} {i j k : Nat} (inside : j ∈ t.subtree i)
    (member : k ∈ t.children j) : k ∈ t.subtree i := by
  induction i using t.children_induction with
  | step i ih =>
    rw [subtree_eq] at inside
    rw [subtree_eq]
    apply List.mem_cons_of_mem
    rcases List.mem_cons.1 inside with rfl | later
    · refine List.mem_flatMap.2 ⟨k, member, ?_⟩
      rw [subtree_eq]
      exact List.mem_cons_self
    · obtain ⟨child, isChild, below⟩ := List.mem_flatMap.1 later
      exact List.mem_flatMap.2 ⟨child, isChild, ih child isChild below⟩

theorem mem_subtree {t : TestTree} {i j : Nat} : j ∈ t.subtree i ↔ t.Below i j := by
  constructor
  -- Down the tree by its leaves; up again along the chain of children, each kept by the walk.
  · intro inside
    induction i using t.children_induction with
    | step i ih =>
      rw [subtree_eq] at inside
      rcases List.mem_cons.1 inside with rfl | later
      · exact .self
      · obtain ⟨child, isChild, below⟩ := List.mem_flatMap.1 later
        exact (Below.of_child isChild).trans (ih child isChild below)
  · intro below
    induction below with
    | self =>
      rw [subtree_eq]
      exact List.mem_cons_self
    | child _ member ih => exact subtree_closed ih member

theorem below_iff {t : TestTree} {i k : Nat} :
    t.Below i k ↔ i = k ∨ ∃ j ∈ t.children i, t.Below j k := by
  rw [← mem_subtree, subtree_eq, List.mem_cons, List.mem_flatMap]
  simp only [mem_subtree, eq_comm]

instance (t : TestTree) (i j : Nat) : Decidable (t.Below i j) :=
  decidable_of_iff (j ∈ t.subtree i) mem_subtree

theorem children_sorted (t : TestTree) (i : Nat) : (t.children i).Pairwise (· < ·) := by
  have numbers : (t.cases.zipIdx.map Prod.snd).Pairwise (· < ·) := by
    rw [List.zipIdx_map_snd]
    exact List.pairwise_lt_range'
  exact numbers.sublist (List.filter_sublist.map _)

theorem children_congr {t t' : TestTree}
    (same : ∀ j, (t'.get? j).map TestCase.parent = (t.get? j).map TestCase.parent) (i : Nat) :
    t'.children i = t.children i := by
  refine (children_sorted t' i).eq_of_mem_iff (children_sorted t i) fun j => ?_
  have parents (u : TestTree) :
      j ∈ u.children i ↔ i < j ∧ (u.get? j).map TestCase.parent = some (some i) := by
    rw [mem_children, Option.map_eq_some_iff]
  rw [parents, parents, same]

theorem subtree_nodup (t : TestTree) (i : Nat) : (t.subtree i).Nodup := by
  induction i using t.children_induction with
  | step i ih =>
    rw [subtree_eq, List.nodup_cons, List.nodup_flatMap]
    refine ⟨?_, ih, ?_⟩
    · intro inside
      obtain ⟨child, isChild, below⟩ := List.mem_flatMap.1 inside
      have later := (mem_children.1 isChild).1
      have above := (mem_subtree.1 below).le
      omega
    · refine (children_sorted t i).imp_of_mem ?_
      intro j k left right before m inLeft inRight
      have same := Below.child_unique left right (mem_subtree.1 inLeft) (mem_subtree.1 inRight)
      omega

theorem subtree_root_perm {t : TestTree} (rooted : t.Rooted) :
    (t.subtree 0).Perm (List.range t.size) := by
  rw [List.perm_ext_iff_of_nodup (t.subtree_nodup 0) List.nodup_range]
  intro i
  rw [mem_subtree, List.mem_range]
  constructor
  · intro below
    exact below.inside rooted.nonempty
  · exact below_root rooted

end Docspec.TestTree
