import Docspec.Proofs.Execution

set_option autoImplicit false

namespace Docspec

namespace TestTree

structure Outside (t : TestTree) (x i : Nat) : Prop where
  inside : i < t.size
  apart : ¬ t.Below x i

/-- Two trees that agree except at and below `x`, when case `i` of the one has number `f i` in the
other. -/
structure Matches (t t' : TestTree) (x : Nat) (f : Nat → Nat) : Prop where
  root : f 0 = 0
  children : ∀ i, t.Outside x i → t'.children (f i) = (t.children i).map f
  name : ∀ i, t.Outside x i → (t'.getD (f i)).name = (t.getD i).name
  commands : ∀ i, t.Outside x i → (t'.getD (f i)).commands = (t.getD i).commands

/-- The cases outside and `x` itself, all of which have their parent outside. -/
inductive Shared (t : TestTree) (x : Nat) : Nat → Prop
  | root : Shared t x 0
  | child {i j : Nat} : Shared t x i → t.Outside x i → j ∈ t.children i → Shared t x j

section Shape

variable {t t' : TestTree} {x : Nat} {f : Nat → Nat}

theorem Outside.parent {i j : Nat} (outside : t.Outside x j) (member : j ∈ t.children i) :
    t.Outside x i where
  inside := Nat.lt_trans (mem_children.1 member).1 outside.inside
  apart below := outside.apart (.child below member)

theorem Outside.shared (rooted : t.Rooted) {i : Nat} (outside : t.Outside x i) :
    t.Shared x i := by
  have below := below_root rooted outside.inside
  induction below with
  | self => exact .root
  | child _ member ih =>
    have above := outside.parent member
    exact .child (ih above) above member

theorem Shared.outside (rooted : t.Rooted) {i : Nat} (shared : t.Shared x i) (differ : x ≠ i) :
    t.Outside x i := by
  cases shared with
  | root =>
    refine ⟨rooted.nonempty, fun below => differ ?_⟩
    exact Nat.le_zero.1 below.le
  | child _ above member =>
    refine ⟨(lt_size_of_mem_children member).2, fun below => above.apart ?_⟩
    exact below.parent_of_ne differ member

theorem Shared.inside (rooted : t.Rooted) {i : Nat} (shared : t.Shared x i) : i < t.size := by
  cases shared with
  | root => exact rooted.nonempty
  | child _ _ member => exact (lt_size_of_mem_children member).2

theorem shared_self (rooted : t.Rooted) (inside : x < t.size) : t.Shared x x := by
  cases below_root rooted inside with
  | self => exact .root
  | @child p _ upper member =>
    have later := (mem_children.1 member).1
    have above : t.Outside x p := by
      refine ⟨Nat.lt_trans later inside, fun below => ?_⟩
      have early := below.le
      omega
    exact .child (above.shared rooted) above member

namespace Matches

variable (matched : Matches t t' x f)
include matched

theorem mem_children {i j : Nat} (outside : t.Outside x i) (member : j ∈ t.children i) :
    f j ∈ t'.children (f i) := by
  rw [matched.children i outside]
  exact List.mem_map_of_mem member

theorem injective {i j : Nat} (left : t.Shared x i) (right : t.Shared x j) (same : f i = f j) :
    i = j := by
  -- Equal numbers have one parent in the other tree, so by induction one here; and among its
  -- children no number comes twice.
  induction left generalizing j with
  | root =>
    cases right with
    | root => rfl
    | child _ outside member =>
      have later := (TestTree.mem_children.1 (matched.mem_children outside member)).1
      rw [← same, matched.root] at later
      exact absurd later (Nat.not_lt_zero _)
  | @child p i shared outside member ih =>
    have image := matched.mem_children outside member
    cases right with
    | root =>
      have later := (TestTree.mem_children.1 image).1
      rw [same, matched.root] at later
      exact absurd later (Nat.not_lt_zero _)
    | @child q _ shared' outside' member' =>
      have image' := matched.mem_children outside' member'
      obtain rfl : p = q := ih shared' (parent_unique image (same ▸ image'))
      have distinct : ((t.children p).map f).Nodup := by
        rw [← matched.children p outside]
        exact (children_sorted t' (f p)).imp Nat.ne_of_lt
      exact List.inj_on_of_nodup_map distinct member member' same

theorem below_of_image {i j : Nat} (left : t.Shared x i) (right : t.Shared x j)
    (below : t'.Below (f i) (f j)) : t.Below i j := by
  induction right with
  | root =>
    have first : f i = f 0 := by
      have early := below.le
      rw [matched.root] at early ⊢
      exact Nat.le_zero.1 early
    rw [matched.injective left .root first]
    exact .self
  | @child p j shared outside member ih =>
    by_cases same : f i = f j
    next =>
      rw [matched.injective left (.child shared outside member) same]
      exact .self
    next =>
      have upper := below.parent_of_ne same (matched.mem_children outside member)
      exact .child (ih upper) member

theorem inside_image (rooted' : t'.Rooted) {i : Nat} (shared : t.Shared x i) :
    f i < t'.size := by
  cases shared with
  | root =>
    rw [matched.root]
    exact rooted'.nonempty
  | child _ outside member =>
    exact (lt_size_of_mem_children (matched.mem_children outside member)).2

theorem outside_image (rooted : t.Rooted) (rooted' : t'.Rooted) (inside : x < t.size) {i : Nat}
    (outside : t.Outside x i) : t'.Outside (f x) (f i) where
  inside := matched.inside_image rooted' (outside.shared rooted)
  apart below := outside.apart
    (matched.below_of_image (shared_self rooted inside) (outside.shared rooted) below)

theorem covered (rooted : t.Rooted) (rooted' : t'.Rooted) {j : Nat}
    (outside : t'.Outside (f x) j) : ∃ i, t.Outside x i ∧ f i = j := by
  have below := below_root rooted' outside.inside
  induction below with
  | self =>
    refine ⟨0, Shared.root.outside rooted ?_, matched.root⟩
    rintro rfl
    rw [matched.root] at outside
    exact outside.apart .self
  | child _ member ih =>
    obtain ⟨p, above, rfl⟩ := ih (outside.parent member)
    rw [matched.children p above] at member
    obtain ⟨i, isChild, rfl⟩ := List.mem_map.1 member
    refine ⟨i, (Shared.child (above.shared rooted) above isChild).outside rooted ?_, rfl⟩
    rintro rfl
    exact outside.apart .self

theorem filter_subtree (rooted : t.Rooted) (rooted' : t'.Rooted) (inside : x < t.size) {i : Nat}
    (shared : t.Shared x i) :
    (t'.subtree (f i)).filter (fun j => ¬ t'.Below (f x) j) =
      ((t.subtree i).filter fun j => ¬ t.Below x j).map f := by
  induction i using t.children_induction with
  | step i ih =>
    -- At `x` both sides are empty: all that is walked is below it.
    by_cases same : x = i
    next =>
      subst same
      have none (u : TestTree) (y : Nat) :
          (u.subtree y).filter (fun j => ¬ u.Below y j) = [] := by
        apply List.filter_eq_nil_iff.2
        intro j member
        simpa using mem_subtree.1 member
      rw [none, none, List.map_nil]
    next =>
      have outside := shared.outside rooted same
      have outside' := matched.outside_image rooted rooted' inside outside
      rw [subtree_eq, subtree_eq, matched.children i outside,
        List.filter_cons_of_pos (by simpa using outside'.apart),
        List.filter_cons_of_pos (by simpa using outside.apart), List.map_cons, List.flatMap_map,
        List.filter_flatMap, List.filter_flatMap, List.map_flatMap]
      congr 1
      apply List.flatMap_congr
      intro j member
      exact ih j member (.child shared outside member)

end Matches

end Shape

def reading : Command := ⟨"print", .print, [.ofLine "\x7b\x7b seen \x7d\x7d"]⟩

def binding : TestTree :=
  let cases := (TestTree.new.addChild 0 "changed".toList 1).addChild 0 "kept".toList 1
  (cases.addCommand 1 ⟨"set", .set, [.ofLine "seen", .ofLine "5"]⟩).addCommand 2 reading

def failing : TestTree :=
  let cases :=
    ((TestTree.new.addChild 0 "other".toList 1).addChild 1 "more".toList 2).addChild 0
      "kept".toList 1
  (cases.addCommand 2 ⟨"set", .set, []⟩).addCommand 3 reading

theorem binding_built : binding.Built :=
  .addCommand _ (.addCommand _ (.addChild _ _ (.addChild _ _ .new (by decide)) (by decide))
    (by decide)) (by decide)

theorem failing_built : failing.Built :=
  .addCommand _ (.addCommand _ (.addChild _ _ (.addChild _ _ (.addChild _ _ .new (by decide))
    (by decide)) (by decide)) (by decide)) (by decide)

theorem binding_outside {i : Nat} (outside : binding.Outside 1 i) : i = 0 ∨ i = 2 := by
  have inside : i < 3 := outside.inside
  have differ : i ≠ 1 := fun same => outside.apart (same ▸ .self)
  omega

theorem binding_matches : binding.Matches failing 1 fun i => if i = 2 then 3 else i where
  root := rfl
  children i outside := by rcases binding_outside outside with rfl | rfl <;> decide
  name i outside := by rcases binding_outside outside with rfl | rfl <;> rfl
  commands i outside := by rcases binding_outside outside with rfl | rfl <;> rfl

end TestTree

def Execution.move (f : Nat → Nat) (y : Execution) : Execution := { y with place := f y.place }

namespace Runner

def executionsOutside (s : Session) (t : TestTree) (c : Context) (x : Nat) : List Execution :=
  (executions s t c).filter fun y => ¬ t.Below x y.place

theorem carryOut_move (s : Session) (f : Nat → Nat) (place : Nat) (commands : List Command)
    (c : Context) :
    carryOut s (f place) commands c = (carryOut s place commands c).map (Execution.move f) := by
  induction commands generalizing c with
  | nil => rfl
  | cons cmd more ih =>
    rw [carryOut, carryOut, List.map_cons, ih]
    rfl

theorem statusOf_move (s : Session) (f : Nat → Nat) (xs : List Execution) :
    statusOf s (xs.map (Execution.move f)) = statusOf s xs := by
  rw [statusOf, statusOf, List.any_map]
  rfl

section Isolation

variable {s : Session} {t t' : TestTree} {c : Context} {x : Nat} {f : Nat → Nat}

theorem filter_executionsBelow (y i : Nat) :
    (executionsBelow s t c i).filter (fun z => ¬ t.Below y z.place) =
      ((t.subtree i).filter fun j => ¬ t.Below y j).flatMap (executionsOf s t c) := by
  have places (j : Nat) : (executionsOf s t c j).filter (fun z => ¬ t.Below y z.place) =
      if t.Below y j then [] else executionsOf s t c j := by
    split
    next below =>
      apply List.filter_eq_nil_iff.2
      intro z member
      simpa [carryOut_place member] using below
    next apart =>
      apply List.filter_eq_self.2
      intro z member
      simpa [carryOut_place member] using apart
  rw [executionsBelow, List.filter_flatMap]
  simp only [places]
  induction t.subtree i with
  | nil => rfl
  | cons j js ih =>
    rw [List.flatMap_cons, ih]
    by_cases below : t.Below y j <;> simp [below]

theorem execution_inside (rooted : t.Rooted) {y : Execution} (ran : y ∈ executions s t c) :
    y.place < t.size :=
  ((mem_executionsBelow rooted rooted.nonempty).1 (executions_eq ▸ ran)).2.inside rooted.nonempty

theorem filter_executionsBelow_self {y i : Nat} (apart : ¬ t.Below y i) (beside : ¬ t.Below i y) :
    (executionsBelow s t c i).filter (fun z => ¬ t.Below y z.place) = executionsBelow s t c i := by
  have kept : (t.subtree i).filter (fun j => ¬ t.Below y j) = t.subtree i := by
    apply List.filter_eq_self.2
    intro j member
    have below := TestTree.mem_subtree.1 member
    have free : ¬ t.Below y j := fun other =>
      (TestTree.Below.comparable below other).elim beside apart
    simpa using free
  rw [filter_executionsBelow, kept, executionsBelow]

section Matched

variable (matched : t.Matches t' x f)
include matched

theorem entry_matched {i : Nat} (shared : t.Shared x i) :
    entry s t' c (f i) = entry s t c i := by
  induction shared with
  | root => rw [matched.root, entry_root, entry_root]
  | child _ outside member ih =>
    rw [entry_child (matched.mem_children outside member), entry_child member,
      matched.commands _ outside, ih]

theorem executionsOf_matched (rooted : t.Rooted) {i : Nat} (outside : t.Outside x i) :
    executionsOf s t' c (f i) = (executionsOf s t c i).map (Execution.move f) := by
  rw [executionsOf, executionsOf, matched.commands i outside,
    entry_matched matched (outside.shared rooted), carryOut_move]

theorem executionsBelow_matched (rooted : t.Rooted) (rooted' : t'.Rooted) (inside : x < t.size)
    {i : Nat} (shared : t.Shared x i) :
    (executionsBelow s t' c (f i)).filter (fun z => ¬ t'.Below (f x) z.place) =
      ((executionsBelow s t c i).filter fun z => ¬ t.Below x z.place).map (Execution.move f) := by
  rw [filter_executionsBelow, filter_executionsBelow,
    matched.filter_subtree rooted rooted' inside shared, List.flatMap_map, List.map_flatMap]
  apply List.flatMap_congr
  intro j member
  obtain ⟨below, apart⟩ := List.mem_filter.1 member
  have outside : t.Outside x j :=
    ⟨(TestTree.mem_subtree.1 below).inside (shared.inside rooted), of_decide_eq_true apart⟩
  exact executionsOf_matched matched rooted outside

theorem executionsOutside_matched (rooted : t.Rooted) (rooted' : t'.Rooted)
    (inside : x < t.size) :
    executionsOutside s t' c (f x) = (executionsOutside s t c x).map (Execution.move f) := by
  have whole := executionsBelow_matched (s := s) (c := c) matched rooted rooted' inside .root
  rw [matched.root] at whole
  rw [executionsOutside, executionsOutside, executions_eq, executions_eq, whole]

theorem status_matched (adds : t.AddsOnly) (adds' : t'.AddsOnly) (rooted : t.Rooted)
    (rooted' : t'.Rooted) (inside : x < t.size) {i : Nat} (outside : t.Outside x i)
    (beside : ¬ t.Below i x) :
    ((s.run t' c).2.tree.getD (f i)).status = ((s.run t c).2.tree.getD i).status := by
  have shared := outside.shared rooted
  have outside' := matched.outside_image rooted rooted' inside outside
  have beside' : ¬ t'.Below (f i) (f x) := fun below =>
    beside (matched.below_of_image shared (TestTree.shared_self rooted inside) below)
  -- Nothing below `x` is below the case, so leaving it out changes neither list.
  have same := executionsBelow_matched (s := s) (c := c) matched rooted rooted' inside shared
  rw [filter_executionsBelow_self outside'.apart beside',
    filter_executionsBelow_self outside.apart beside] at same
  rw [run_statusOf adds rooted outside.inside, run_statusOf adds' rooted' outside'.inside, same,
    statusOf_move]

theorem failures_matched (rooted : t.Rooted) (rooted' : t'.Rooted) (inside : x < t.size) :
    (executionsOutside s t' c (f x)).filterMap (failureOf s t') =
      (executionsOutside s t c x).filterMap (failureOf s t) := by
  rw [executionsOutside_matched matched rooted rooted' inside, List.filterMap_map]
  apply List.filterMap_congr
  intro y member
  obtain ⟨ran, apart⟩ := List.mem_filter.1 member
  have outside : t.Outside x y.place := ⟨execution_inside rooted ran, of_decide_eq_true apart⟩
  rw [Function.comp_apply, failureOf, failureOf, Execution.move, matched.name _ outside]
  rfl

theorem run_isolates (adds : t.AddsOnly) (adds' : t'.AddsOnly) (built : t.Built)
    (built' : t'.Built) (inside : x < t.size) :
    (∀ i, t.Outside x i → ¬ t.Below i x →
      ((s.run t' c).2.tree.getD (f i)).status = ((s.run t c).2.tree.getD i).status) ∧
    (s.run t c).2.session.output = s.output ++ printedOf s (executions s t c) ∧
    (s.run t' c).2.session.output = s.output ++ printedOf s (executions s t' c) ∧
    printedOf s (executionsOutside s t' c (f x)) = printedOf s (executionsOutside s t c x) ∧
    (s.run t c).2.failures = (executions s t c).filterMap (failureOf s t) ∧
    (s.run t' c).2.failures = (executions s t' c).filterMap (failureOf s t') ∧
    (executionsOutside s t' c (f x)).filterMap (failureOf s t') =
      (executionsOutside s t c x).filterMap (failureOf s t) ∧
    executionsOutside s t' c (f x) = (executionsOutside s t c x).map (Execution.move f) ∧
    ∀ j, t'.Outside (f x) j ↔ ∃ i, t.Outside x i ∧ f i = j := by
  have rooted := built.rooted
  have rooted' := built'.rooted
  have moved := executionsOutside_matched (s := s) (c := c) matched rooted rooted' inside
  refine ⟨fun i => status_matched matched adds adds' rooted rooted' inside, run_output adds,
    run_output adds', ?_, run_failures adds, run_failures adds',
    failures_matched matched rooted rooted' inside, moved, fun j => ⟨?_, ?_⟩⟩
  · rw [moved, printedOf, List.flatMap_map]
    rfl
  · exact matched.covered rooted rooted'
  · rintro ⟨i, outside, rfl⟩
    exact matched.outside_image rooted rooted' inside outside

end Matched

end Isolation

theorem run_isolates_beside :
    let s := Session.new ⟨.default, .empty⟩ id
    TestTree.binding.AddsOnly ∧ TestTree.failing.AddsOnly ∧
      TestTree.binding.Built ∧ TestTree.failing.Built ∧ 1 < TestTree.binding.size ∧
      TestTree.binding.Matches .failing 1 (fun i => if i = 2 then 3 else i) ∧
      ((s.run .failing .empty).2.tree.getD 3).status =
        ((s.run .binding .empty).2.tree.getD 2).status ∧
      printedOf s (executionsOutside s .failing .empty 1) =
        printedOf s (executionsOutside s .binding .empty 1) := by
  intro s
  have adds : TestTree.binding.AddsOnly := TestTree.addsOnly_of_builtin rfl
  have adds' : TestTree.failing.AddsOnly := TestTree.addsOnly_of_builtin rfl
  obtain ⟨statuses, -, -, printed, -⟩ :=
    run_isolates (s := s) (c := .empty) TestTree.binding_matches adds adds'
      TestTree.binding_built TestTree.failing_built (by decide)
  have apart : ¬ TestTree.binding.Below 1 2 := by
    rw [← TestTree.mem_subtree, TestTree.subtree_eq]
    decide
  have beside : ¬ TestTree.binding.Below 2 1 := fun below => absurd below.le (by decide)
  exact ⟨adds, adds', TestTree.binding_built, TestTree.failing_built, by decide,
    TestTree.binding_matches, statuses 2 ⟨by decide, apart⟩ beside, printed⟩

end Runner

end Docspec
