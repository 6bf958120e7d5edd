import Docspec.Proofs.Aggregation
import Mathlib.Data.List.Basic

set_option autoImplicit false

namespace Docspec

namespace TestTree

theorem summary_total {t : TestTree} (started : ∀ n ∈ t.cases.tail, n.status = .passed ∨
    n.status = .failed) : t.summary.passed + t.summary.failed = t.summary.total := by
  have apart : t.cases.tail.filter (·.status == .failed) =
      t.cases.tail.filter fun n => !n.isPassed := by
    apply List.filter_congr
    intro n member
    rcases started n member with passed | failed
    · simp [TestCase.isPassed, passed]
    · simp [TestCase.isPassed, failed]
  rw [summary, apart]
  exact (List.length_eq_length_filter_add TestCase.isPassed).symm

theorem mem_tail_iff {t : TestTree} {n : TestCase} :
    n ∈ t.cases.tail ↔ ∃ i, 0 < i ∧ t.get? i = some n := by
  rw [List.mem_iff_getElem?]
  constructor
  · rintro ⟨i, found⟩
    exact ⟨i + 1, Nat.succ_pos i, by rwa [List.getElem?_tail] at found⟩
  · rintro ⟨i, positive, found⟩
    refine ⟨i - 1, ?_⟩
    rwa [List.getElem?_tail, Nat.sub_add_cancel positive]

theorem getD_of_get? {t : TestTree} {i : Nat} {n : TestCase} (found : t.get? i = some n) :
    t.getD i = n := by
  rw [getD, found, Option.getD_some]

theorem childCounts_full_iff {t : TestTree} {i : Nat} :
    (t.childCounts i).1 = (t.children i).length ↔
      ∀ j ∈ t.children i, (t.getD j).status = .passed := by
  rw [childCounts, List.length_filter_eq_length_iff]
  simp [TestCase.isPassed]

end TestTree

namespace Runner

section Runs

variable {s : Session} {t : TestTree} {c : Context}

theorem failed_iff (rooted : t.Rooted) {i : Nat} (inside : i < t.size) :
    ((s.run t c).2.tree.getD i).status = .failed ↔
      (∃ x ∈ trace s t c, x.place = i ∧ (x.outcome s).error.isSome) ∨
        ∃ j ∈ t.children i, ((s.run t c).2.tree.getD j).status = .failed := by
  have below : (∃ j ∈ t.children i, ((s.run t c).2.tree.getD j).status = .failed) ↔
      ∃ x ∈ trace s t c, (∃ j ∈ t.children i, t.Below j x.place) ∧
        (x.outcome s).error.isSome := by
    constructor
    · rintro ⟨j, child, failed⟩
      rw [run_status rooted (TestTree.lt_size_of_mem_children child).2] at failed
      obtain ⟨x, member, under, fails⟩ := verdict_eq_failed.1 failed
      exact ⟨x, member, ⟨j, child, under⟩, fails⟩
    · rintro ⟨x, member, ⟨j, child, under⟩, fails⟩
      refine ⟨j, child, ?_⟩
      rw [run_status rooted (TestTree.lt_size_of_mem_children child).2]
      exact verdict_eq_failed.2 ⟨x, member, under, fails⟩
  rw [run_status rooted inside, verdict_eq_failed, below, ← exists_or]
  refine exists_congr fun x => ?_
  rw [TestTree.below_iff, eq_comm, or_and_right, and_or_left]

theorem passed_iff (rooted : t.Rooted) {i : Nat} (inside : i < t.size) :
    ((s.run t c).2.tree.getD i).status = .passed ↔
      ((s.run t c).2.tree.getD i).status ≠ .failed := by
  rw [run_status rooted inside]
  rcases verdict_started (s := s) (t := t) (trace s t c) i with passed | failed
  · simp [passed]
  · simp [failed]

theorem failed_above (rooted : t.Rooted) {i j : Nat} (below : t.Below i j) (inside : j < t.size)
    (failed : ((s.run t c).2.tree.getD j).status = .failed) :
    ((s.run t c).2.tree.getD i).status = .failed := by
  induction below with
  | self => exact failed
  | @child j k upper member ih =>
    have earlier : j < t.size := Nat.lt_trans (TestTree.mem_children.1 member).1 inside
    exact ih earlier ((failed_iff rooted earlier).2 (.inr ⟨k, member, failed⟩))

theorem failed_eq_zero_iff (rooted : t.Rooted) :
    (s.run t c).2.tree.summary.failed = 0 ↔
      ∀ i, 0 < i → i < t.size → ((s.run t c).2.tree.getD i).status = .passed := by
  have size := (s.run t c).2.size_eq
  rw [TestTree.summary, List.length_eq_zero_iff, List.filter_eq_nil_iff]
  simp only [TestTree.mem_tail_iff, beq_iff_eq]
  constructor
  · intro none i positive inside
    have within : i < (s.run t c).2.tree.cases.length := Nat.lt_of_lt_of_eq inside size.symm
    have found : (s.run t c).2.tree.get? i = some (s.run t c).2.tree.cases[i] :=
      List.getElem?_eq_getElem within
    rw [passed_iff rooted inside, TestTree.getD_of_get? found]
    exact none _ ⟨i, positive, found⟩
  · rintro all n ⟨i, positive, found⟩
    have within := (List.getElem?_eq_some_iff.1 found).1
    have inside : i < t.size := Nat.lt_of_lt_of_eq within size
    rw [← TestTree.getD_of_get? found]
    exact (passed_iff rooted inside).1 (all i positive inside)

theorem children_passed (rooted : t.Rooted) {i : Nat} (inside : i < t.size)
    (passed : ((s.run t c).2.tree.getD i).status = .passed) :
    ∀ j ∈ t.children i, ((s.run t c).2.tree.getD j).status = .passed := by
  intro j child
  have later := (TestTree.lt_size_of_mem_children child).2
  refine (passed_iff rooted later).2 fun failed => (passed_iff rooted inside).1 passed ?_
  exact (failed_iff rooted inside).2 (.inr ⟨j, child, failed⟩)

theorem failed_by_own (rooted : t.Rooted) {i : Nat} (inside : i < t.size)
    (failed : ((s.run t c).2.tree.getD i).status = .failed)
    (full : ∀ j ∈ t.children i, ((s.run t c).2.tree.getD j).status = .passed) :
    ∃ x ∈ trace s t c, x.place = i ∧ (x.outcome s).error.isSome := by
  refine ((failed_iff rooted inside).1 failed).resolve_right ?_
  rintro ⟨j, child, below⟩
  have later := (TestTree.lt_size_of_mem_children child).2
  exact (passed_iff rooted later).1 (full j child) below

theorem root_passed_iff (rooted : t.Rooted) :
    ((s.run t c).2.tree.getD 0).status = .passed ↔ (s.run t c).2.tree.summary.failed = 0 ∧
      ∀ x ∈ trace s t c, x.place = 0 → (x.outcome s).error = none := by
  rw [passed_iff rooted rooted.nonempty, ne_eq, failed_iff rooted rooted.nonempty,
    failed_eq_zero_iff rooted]
  constructor
  · intro sound
    refine ⟨fun i positive inside => (passed_iff rooted inside).2 fun failed => ?_,
      fun x member place => ?_⟩
    · have below := TestTree.below_root rooted inside
      exact sound ((failed_iff rooted rooted.nonempty).1 (failed_above rooted below inside failed))
    · rw [← Option.not_isSome_iff_eq_none]
      exact fun fails => sound (.inl ⟨x, member, place, fails⟩)
  · rintro ⟨passed, own⟩ (⟨x, member, place, fails⟩ | ⟨j, child, failed⟩)
    · simp [own x member place] at fails
    · have later := TestTree.lt_size_of_mem_children child
      exact (passed_iff rooted later.2).1 (passed j later.1 later.2) failed

theorem run_counts (built : t.Built) (s : Session) (c : Context) :
    let tree := (s.run t c).2.tree
    (tree.summary.passed + tree.summary.failed = tree.summary.total ∧
        tree.summary.total = t.size - 1) ∧
      ((s.run t c).1 = (tree.getD 0).status ∧
        ((tree.getD 0).status = .passed ↔ tree.summary.failed = 0 ∧
          ∀ x ∈ trace s t c, x.place = 0 → (x.outcome s).error = none)) ∧
      (∀ i < t.size, ∃ p, tree.childCounts i = (p, (t.children i).length) ∧
        ((tree.getD i).status = .passed → p = (t.children i).length) ∧
        ((tree.getD i).status = .failed → p = (t.children i).length →
          ∃ x ∈ trace s t c, x.place = i ∧ (x.outcome s).error.isSome)) ∧
      (∀ i j, t.Below i j → j < t.size → (tree.getD j).status = .failed →
        (tree.getD i).status = .failed) ∧
      ∀ i < t.size, (tree.getD i).status = .passed →
        (t.subtree i).filter (fun j => (tree.getD j).status = .failed) = [] := by
  intro tree
  have rooted := built.rooted
  have size : tree.size = t.size := (s.run t c).2.size_eq
  have children (i : Nat) : tree.children i = t.children i := run_children i
  have full (i : Nat) : (tree.childCounts i).1 = (t.children i).length ↔
      ∀ j ∈ t.children i, (tree.getD j).status = .passed := by
    rw [← children, TestTree.childCounts_full_iff]
  refine ⟨⟨TestTree.summary_total ?_, ?_⟩, ⟨?_, root_passed_iff rooted⟩, fun i inside => ?_,
    fun i j => failed_above rooted, fun i inside passed => ?_⟩
  · intro n member
    obtain ⟨i, -, found⟩ := TestTree.mem_tail_iff.1 member
    have inside : i < t.size := size ▸ (List.getElem?_eq_some_iff.1 found).1
    rw [← TestTree.getD_of_get? found, run_status rooted inside]
    exact verdict_started _ i
  · rw [TestTree.summary, List.length_tail]
    exact congrArg (· - 1) size
  · rw [run_status rooted rooted.nonempty]
    exact run_came.verdict
  · refine ⟨_, Prod.ext rfl (congrArg List.length (children i)), fun passed => ?_, ?_⟩
    · exact (full i).2 (children_passed rooted inside passed)
    · exact fun failed all => failed_by_own rooted inside failed ((full i).1 all)
  · refine List.filter_eq_nil_iff.2 fun j member failed => ?_
    have below := TestTree.mem_subtree.1 member
    exact (passed_iff rooted inside).1 passed
      (failed_above rooted below (below.inside inside) (of_decide_eq_true failed))

end Runs

theorem run_counts_nested :
    let s := Session.new ⟨.default, .empty⟩ id
    let tree := (s.run .nested .empty).2.tree
    TestTree.nested.Built ∧ tree.summary.passed + tree.summary.failed = 3 ∧
      (tree.getD 0).status = .failed ∧ tree.childCounts 0 = (1, 2) ∧
      ∃ x ∈ trace s .nested .empty, x.place = 2 ∧ (x.outcome s).error.isSome := by
  intro s tree
  obtain ⟨⟨sum, total⟩, -, counts, above, -⟩ := run_counts TestTree.nested_built s .empty
  have failed : (tree.getD 2).status = .failed := by decide +kernel
  obtain ⟨p, shape, -, own⟩ := counts 2 (by decide)
  have none : p = 0 := by
    have known : tree.childCounts 2 = (0, 0) := by decide +kernel
    exact congrArg Prod.fst (shape.symm.trans known)
  refine ⟨TestTree.nested_built, sum.trans total, above 0 2 (by decide +kernel) (by decide) failed,
    by decide +kernel, own failed (none.trans ?_)⟩
  decide

end Runner

end Docspec
