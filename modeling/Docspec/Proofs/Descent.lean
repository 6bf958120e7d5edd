import Docspec.Proofs.TreeShape

set_option autoImplicit false

namespace Docspec.TestTree

inductive Leads (t : TestTree) : Nat → List Text → Nat → Prop
  | here {i : Nat} : Leads t i [] i
  | child {i j k : Nat} {path : List Text} : j ∈ t.children i → Leads t j path k →
    Leads t i ((t.getD j).name :: path) k

def FirstNamed (t : TestTree) (i j : Nat) : Prop :=
  ∃ before after, t.children i = before ++ j :: after ∧
    ∀ k ∈ before, (t.getD k).name ≠ (t.getD j).name

/-- A path that leads to a case through first children of their names. The last may be any. -/
inductive LeadsFirst (t : TestTree) : Nat → List Text → Nat → Prop
  | here {i : Nat} : LeadsFirst t i [] i
  | last {i j : Nat} : j ∈ t.children i → LeadsFirst t i [(t.getD j).name] j
  | child {i j k : Nat} {path : List Text} : t.FirstNamed i j → LeadsFirst t j path k →
    LeadsFirst t i ((t.getD j).name :: path) k

section Descent

variable {t : TestTree}

theorem FirstNamed.mem {i j : Nat} (first : t.FirstNamed i j) : j ∈ t.children i := by
  obtain ⟨before, after, shape, -⟩ := first
  simp [shape]

theorem child?_eq_some_iff {i j : Nat} {name : Text} :
    t.child? i name = some j ↔ (t.getD j).name = name ∧ t.FirstNamed i j := by
  rw [child?, List.find?_eq_some_iff_append, decide_eq_true_eq]
  apply and_congr_right
  rintro rfl
  simp [FirstNamed]

theorem child?_isSome {i j : Nat} (member : j ∈ t.children i) :
    (t.child? i (t.getD j).name).isSome := by
  rw [child?, List.find?_isSome]
  exact ⟨j, member, decide_eq_true rfl⟩

theorem Leads.isBelow {i k : Nat} {path : List Text} (leads : t.Leads i path k) : t.Below i k := by
  induction leads with
  | here => exact .self
  | child member _ ih => exact (Below.of_child member).trans ih

theorem LeadsFirst.leads {i k : Nat} {path : List Text} (leads : t.LeadsFirst i path k) :
    t.Leads i path k := by
  induction leads with
  | here => exact .here
  | last member => exact .child member .here
  | child first _ ih => exact .child first.mem ih

theorem leadsFirst_of_found {path : List Text} {i k : Nat}
    (found : path.foldlM t.child? i = some k) : t.LeadsFirst i path k := by
  induction path generalizing i with
  | nil =>
    cases found
    exact .here
  | cons name path ih =>
    obtain ⟨j, step, rest⟩ := Option.bind_eq_some_iff.1 found
    obtain ⟨rfl, first⟩ := child?_eq_some_iff.1 step
    exact .child first (ih rest)

theorem LeadsFirst.found {path : List Text} {i k : Nat} (leads : t.LeadsFirst i path k) :
    (path.foldlM t.child? i).isSome := by
  induction leads with
  | here => rfl
  | last member =>
    obtain ⟨j, step⟩ := Option.isSome_iff_exists.1 (child?_isSome member)
    rw [List.foldlM_cons, step]
    rfl
  | child first _ ih =>
    rw [List.foldlM_cons, child?_eq_some_iff.2 ⟨rfl, first⟩]
    exact ih

-- Before the found case a walk comes to the cases above it, to those below the children passed over
-- for their names, and below the child taken to those before the found one.
theorem first_of_found {path : List Text} {i k : Nat} (found : path.foldlM t.child? i = some k) :
    ∃ before after, t.subtree i = before ++ k :: after ∧ ∀ m ∈ before, ¬ t.Leads i path m := by
  induction path generalizing i with
  | nil =>
    cases found
    exact ⟨[], _, t.subtree_eq _, by simp⟩
  | cons name path ih =>
    obtain ⟨j, step, rest⟩ := Option.bind_eq_some_iff.1 found
    obtain ⟨rfl, first⟩ := child?_eq_some_iff.1 step
    obtain ⟨passed, later, children, differ⟩ := first
    obtain ⟨before, after, shape, missed⟩ := ih rest
    refine ⟨i :: (passed.flatMap t.subtree ++ before), after ++ later.flatMap t.subtree, ?_, ?_⟩
    · rw [subtree_eq, children, List.flatMap_append, List.flatMap_cons, shape]
      simp
    have child : j ∈ t.children i := by simp [children]
    intro m member leads
    generalize named : (t.getD j).name :: path = names at leads
    cases leads with
    | here => cases named
    | @child _ l _ _ isChild onward =>
      obtain ⟨same, rfl⟩ := List.cons.inj named
      rcases List.mem_cons.1 member with rfl | inside
      · have above := onward.isBelow.le
        have below := (mem_children.1 isChild).1
        omega
      rcases List.mem_append.1 inside with elsewhere | own
      · obtain ⟨p, isPassed, under⟩ := List.mem_flatMap.1 elsewhere
        have other : p ∈ t.children i := by simp [children, isPassed]
        obtain rfl := Below.child_unique other isChild (mem_subtree.1 under) onward.isBelow
        exact differ p isPassed same.symm
      · have under : m ∈ t.subtree j := by simp [shape, own]
        obtain rfl := Below.child_unique child isChild (mem_subtree.1 under) onward.isBelow
        exact missed m own onward

theorem Leads.first (distinct : ∀ i, ((t.children i).map fun j => (t.getD j).name).Nodup)
    {path : List Text} {i k : Nat} (leads : t.Leads i path k) : t.LeadsFirst i path k := by
  induction leads with
  | here => exact .here
  | @child i j k path member _ ih =>
    obtain ⟨before, after, shape⟩ := List.append_of_mem member
    refine .child ⟨before, after, shape, fun l earlier same => ?_⟩ ih
    have names := distinct i
    rw [shape, List.map_append, List.map_cons, List.nodup_middle, List.nodup_cons] at names
    exact names.1 (by simpa using .inl ⟨l, earlier, same⟩)

end Descent

theorem find?_descends (t : TestTree) (path : List Text) :
    (∀ i, t.find? path = some i → t.Leads 0 path i ∧
        ∃ before after, 0 :: t.walk.map Prod.snd = before ++ i :: after ∧
          ∀ j ∈ before, ¬ t.Leads 0 path j) ∧
      ((t.find? path).isSome ↔ ∃ i, t.LeadsFirst 0 path i) ∧
      ((∀ i, ((t.children i).map fun j => (t.getD j).name).Nodup) →
        ((t.find? path).isSome ↔ ∃ i, t.Leads 0 path i)) := by
  have complete : (t.find? path).isSome ↔ ∃ i, t.LeadsFirst 0 path i := by
    constructor
    · intro found
      obtain ⟨i, found⟩ := Option.isSome_iff_exists.1 found
      exact ⟨i, leadsFirst_of_found found⟩
    · rintro ⟨i, leads⟩
      exact leads.found
  refine ⟨fun i found => ⟨(leadsFirst_of_found found).leads, ?_⟩, complete, fun distinct => ?_⟩
  · rw [← subtree_root]
    exact first_of_found found
  · rw [complete]
    exact exists_congr fun i => ⟨LeadsFirst.leads, Leads.first distinct⟩

def twins : TestTree :=
  let first := (TestTree.new.addChild 0 "a".toList 1).addChild 1 "c".toList 2
  ((first.addChild 0 "a".toList 1).addChild 3 "c".toList 2).addChild 3 "b".toList 2

theorem find?_descends_twins :
    twins.find? ["a", "c"] = some 2 ∧ twins.Leads 0 ["a", "c"] 4 ∧ twins.Leads 0 ["a", "c"] 2 ∧
      ∃ before after, 0 :: twins.walk.map Prod.snd = before ++ 2 :: after ∧
        ∀ j ∈ before, ¬ twins.Leads 0 ["a", "c"] j := by
  have found : twins.find? ["a", "c"] = some 2 := by decide
  obtain ⟨leads, first⟩ := (find?_descends twins ["a", "c"]).1 2 found
  have second : twins.Leads 0 ["a", "c"] 4 :=
    .child (j := 3) (by decide) (.child (j := 4) (by decide) .here)
  exact ⟨found, second, leads, first⟩

theorem find?_misses :
    twins.Built ∧ twins.Leads 0 ["a", "b"] 5 ∧ twins.find? ["a", "b"] = none := by
  refine ⟨?_, .child (j := 3) (by decide) (.child (j := 5) (by decide) .here), by decide⟩
  refine .addChild _ _ (.addChild _ _ (.addChild _ _ (.addChild _ _ (.addChild _ _ .new ?_) ?_) ?_)
    ?_) ?_ <;> decide

end Docspec.TestTree
