import Docspec.Proofs.Trace

set_option autoImplicit false

namespace Docspec

namespace TestTree

section Alike

variable {t u : TestTree}

theorem getD_of_reset_eq (alike : u.reset = t.reset) (i : Nat) :
    (u.getD i).name = (t.getD i).name ∧ (u.getD i).commands = (t.getD i).commands := by
  have same := congrArg (get? i) alike
  rw [get?_reset, get?_reset] at same
  rw [getD, getD]
  cases left : u.get? i <;> cases right : t.get? i <;> simp_all

theorem children_of_reset_eq (alike : u.reset = t.reset) (i : Nat) :
    u.children i = t.children i := by
  apply children_congr
  intro j
  have same := congrArg (fun v => (v.get? j).map TestCase.parent) alike
  simpa [get?_reset, Function.comp_def] using same

theorem get?_of_reset_eq (alike : u.reset = t.reset) (i : Nat) :
    u.get? i = (t.get? i).map fun n => { n with status := (u.getD i).status } := by
  have same := congrArg (get? i) alike
  rw [get?_reset, get?_reset] at same
  rw [getD]
  cases left : u.get? i <;> cases right : t.get? i <;> simp_all
  next n m => cases n; cases m; simp_all

theorem reset_setStatus (i : Nat) (status : Status) : (t.setStatus i status).reset = t.reset := by
  have cases : (t.setStatus i status).reset.cases = t.reset.cases := by
    apply List.ext_getElem?
    intro j
    change (t.setStatus i status).reset.get? j = t.reset.get? j
    rw [get?_reset, get?_reset, setStatus, get?_modify, Option.map_map]
    congr 1
    funext n
    by_cases same : i = j <;> simp [same]
  exact congrArg TestTree.mk cases

theorem status_setStatus {i j : Nat} (status : Status) (inside : j < t.size) :
    ((t.setStatus i status).getD j).status = if i = j then status else (t.getD j).status := by
  have found : t.get? j = some t.cases[j] := List.getElem?_eq_getElem inside
  rw [getD, setStatus, get?_modify, getD, found]
  by_cases same : i = j <;> simp [same]

end Alike

end TestTree

namespace Runner

section Follows

variable (s : Session) (t : TestTree) (c : Context)

/-- A run of `t` that has come as far as some steps. -/
structure Follows (done : List Step) (r : Run t.size) : Prop where
  session : r.session = { s with output := outputAfter s done }
  cases : r.tree.reset = t.reset
  failures : r.failures = done.filterMap (Step.failure? s t)

def failsBelow (done : List Step) (i : Nat) : Bool :=
  done.any fun x => t.Below i x.place && x.fails s

def verdict (done : List Step) (i : Nat) : Status :=
  if failsBelow s t done i then .failed else .passed

end Follows

variable {s : Session} {t : TestTree} {c : Context}

theorem verdict_eq_failed {done : List Step} {i : Nat} :
    verdict s t done i = .failed ↔
      ∃ x ∈ done, t.Below i x.place ∧ (x.outcome s).error.isSome := by
  have any : failsBelow s t done i = true ↔
      ∃ x ∈ done, t.Below i x.place ∧ (x.outcome s).error.isSome := by
    simp [failsBelow, Step.fails]
  rw [← any, verdict]
  cases failsBelow s t done i <;> simp

theorem verdict_started (done : List Step) (i : Nat) :
    verdict s t done i = .passed ∨ verdict s t done i = .failed := by
  rw [verdict]
  cases failsBelow s t done i <;> simp

theorem failsBelow_apart {xs : List Step} {i : Nat} (apart : ∀ x ∈ xs, ¬ t.Below i x.place) :
    failsBelow s t xs i = false := by
  rw [failsBelow, List.any_eq_false]
  intro x member
  simp [apart x member]

theorem failsBelow_append (xs ys : List Step) (i : Nat) :
    failsBelow s t (xs ++ ys) i = (failsBelow s t xs i || failsBelow s t ys i) := List.any_append

theorem failsBelow_own {xs : List Step} {i : Nat} (inside : ∀ x ∈ xs, t.Below i x.place) :
    failsBelow s t xs i = !(xs.filterMap (Step.failure? s t)).isEmpty := by
  induction xs with
  | nil => rfl
  | cons x xs ih =>
    have later := ih fun y member => inside y (List.mem_cons_of_mem x member)
    have here := inside x List.mem_cons_self
    rw [failsBelow] at later
    rw [failsBelow, List.any_cons, later, List.filterMap_cons, Step.failure?, Step.fails]
    cases (x.outcome s).error <;> simp [here]

theorem failsBelow_fresh {done later : List Step} {i j : Nat} (member : j ∈ t.children i)
    (fresh : Fresh t done j) (inside : ∀ x ∈ later, t.Below j x.place) :
    failsBelow s t (done ++ later) i =
      (failsBelow s t done i || failsBelow s t (done ++ later) j) := by
  have same : failsBelow s t later i = failsBelow s t later j := by
    rw [Bool.eq_iff_iff, failsBelow, failsBelow, List.any_eq_true, List.any_eq_true]
    refine exists_congr fun x => and_congr_right fun new => ?_
    have below := inside x new
    simp [below, (TestTree.Below.of_child member).trans below]
  rw [failsBelow_append, failsBelow_append, failsBelow_apart fresh, same, Bool.false_or]

def visit {n : Nat} (c : Context) (acc : Bool × Run n) (j : Nat) : Bool × Run n :=
  let q := runCase j c acc.2
  (acc.1 || q.1 == .failed, q.2)

theorem runCase_eq {n : Nat} (i : Nat) (c : Context) (r : Run n) :
    runCase i c r =
      let own := runCommands (r.tree.getD i).name (r.tree.getD i).commands c r.session
      let below := (r.tree.children i).foldl (visit own.1)
        (!own.2.2.isEmpty, { r with session := own.2.1, failures := r.failures ++ own.2.2 })
      let status := if below.1 then Status.failed else .passed
      (status, below.2.setStatus i status) := by
  have attached (c : Context) (acc : Bool × Run n) :
      (r.tree.children i).attach.foldl (fun acc j => visit c acc j.1) acc =
        (r.tree.children i).foldl (visit c) acc := List.foldl_attach
  rw [runCase]
  simp only [← attached]
  rfl

/-- A run that has come through a case and some of its children, with what it holds against the
case so far. `r` is the run before. -/
structure Through (s : Session) (t : TestTree) (c : Context) (done : List Step) (i : Nat)
    (r : Run t.size) (js : List Nat) (acc : Bool × Run t.size) : Prop where
  follows : Follows s t (through s t c done i js) acc.2
  failed : acc.1 = failsBelow s t (through s t c done i js) i
  status : ∀ k < t.size, (acc.2.tree.getD k).status =
    if ∃ j ∈ js, t.Below j k then verdict s t (through s t c done i js) k
    else (r.tree.getD k).status

structure Came (s : Session) (t : TestTree) (c : Context) (done : List Step) (i : Nat)
    (r : Run t.size) (q : Status × Run t.size) : Prop where
  verdict : q.1 = verdict s t (done ++ traceFrom s t c done (commandsFrom t i)) i
  follows : Follows s t (done ++ traceFrom s t c done (commandsFrom t i)) q.2
  status : ∀ k < t.size, (q.2.tree.getD k).status =
    if t.Below i k then Runner.verdict s t (done ++ traceFrom s t c done (commandsFrom t i)) k
    else (r.tree.getD k).status

section Case

variable {done : List Step} {i : Nat} {r : Run t.size}

theorem Through.snoc {before after : List Nat} {j : Nat} {acc : Bool × Run t.size}
    (children : t.children i = before ++ j :: after) (fresh : Fresh t done i)
    (come : Through s t c done i r before acc)
    (ran : Came s t c (through s t c done i before) j acc.2
      (runCase j (contextAfter s t c (through s t c done i []) i) acc.2)) :
    Through s t c done i r (before ++ [j])
      (visit (contextAfter s t c (through s t c done i []) i) acc j) := by
  have member : j ∈ t.children i := children ▸ by simp
  have inside : ∀ x ∈ traceFrom s t c (through s t c done i before) (commandsFrom t j),
      t.Below j x.place := fun x new => below_of_mem_commandsFrom (mem_of_mem_traceFrom new)
  refine ⟨?_, ?_, ?_⟩
  · rw [through_snoc]
    exact ran.follows
  · rw [through_snoc, failsBelow_fresh member (fresh_child children fresh) inside, visit,
      come.failed, ran.verdict, Runner.verdict]
    cases failsBelow s t (through s t c done i before ++
      traceFrom s t c (through s t c done i before) (commandsFrom t j)) j <;> rfl
  · intro k within
    rw [visit, ran.status k within, through_snoc]
    by_cases below : t.Below j k
    next => simp [below]
    next =>
      -- What this child has done is not below the cases that came before.
      rw [if_neg below, come.status k within]
      simp only [List.mem_append, List.mem_singleton, or_and_right, exists_or, exists_eq_left,
        below, or_false]
      split
      next earlier =>
        obtain ⟨j', old, upper⟩ := earlier
        have apart : ∀ x ∈ traceFrom s t c (through s t c done i before) (commandsFrom t j),
            ¬ t.Below k x.place :=
          fun x new lower => sibling_apart children old (upper.trans lower) (inside x new)
        rw [Runner.verdict, Runner.verdict, failsBelow_append, failsBelow_apart apart,
          Bool.or_false]
      next => rfl

theorem Through.foldl {before after : List Nat} {acc : Bool × Run t.size}
    (children : t.children i = before ++ after) (fresh : Fresh t done i)
    (ih : ∀ j ∈ t.children i, ∀ (done : List Step) (r : Run t.size), Fresh t done j →
      Follows s t done r → Came s t c done j r (runCase j (contextAfter s t c done j) r))
    (come : Through s t c done i r before acc) :
    Through s t c done i r (t.children i)
      (after.foldl (visit (contextAfter s t c (through s t c done i []) i)) acc) := by
  induction after generalizing before acc with
  | nil =>
    rw [children, List.append_nil]
    exact come
  | cons j after rest =>
    have member : j ∈ t.children i := children ▸ by simp
    have ran := ih j member _ acc.2 (fresh_child children fresh) come.follows
    rw [contextAfter_child children fresh] at ran
    exact rest (by simpa using children) (come.snoc children fresh ran)

theorem Through.own (fresh : Fresh t done i) (start : Follows s t done r) :
    let own := runCommands (r.tree.getD i).name (r.tree.getD i).commands
      (contextAfter s t c done i) r.session
    own.1 = contextAfter s t c (through s t c done i []) i ∧
      Through s t c done i r [] (!own.2.2.isEmpty,
        { r with session := own.2.1, failures := r.failures ++ own.2.2 }) := by
  intro own
  obtain ⟨name, commands⟩ := TestTree.getD_of_reset_eq start.cases i
  have carried : own = runCommands (t.getD i).name (t.getD i).commands (contextAfter s t c done i)
      { s with output := outputAfter s done } := by
    simp only [own, name, commands, start.session]
  have now : through s t c done i [] = done ++ traceFrom s t c done (ownCommands t i) := by
    rw [through, List.flatMap_nil, List.append_nil]
  rw [carried, runCommands_trace, now]
  refine ⟨rfl, ⟨?_, start.cases, ?_⟩, ?_, ?_⟩
  · rw [now]
    rfl
  · rw [now, List.filterMap_append, start.failures]
    rfl
  · -- No step before was below the case, and all of its own are.
    rw [now, failsBelow_append, failsBelow_apart fresh, Bool.false_or]
    refine (failsBelow_own fun x member => ?_).symm
    have place : x.place = i := place_of_mem_ownCommands (mem_of_mem_traceFrom member)
    rw [place]
    exact .self
  · intro k _
    simp

-- By induction from the leaves up: the case itself, and then one child after the other.
theorem runCase_came (i : Nat) : ∀ (done : List Step) (r : Run t.size), Fresh t done i →
    Follows s t done r → Came s t c done i r (runCase i (contextAfter s t c done i) r) := by
  induction i using t.children_induction with
  | step i ih =>
    intro done r fresh start
    obtain ⟨context, own⟩ := Through.own (c := c) fresh start
    have all : t.children i = [] ++ t.children i := rfl
    have whole := Through.foldl all fresh ih own
    simp only [runCase_eq, context, TestTree.children_of_reset_eq start.cases]
    generalize (t.children i).foldl _ _ = below at whole
    obtain ⟨follows, failed, status⟩ := whole
    rw [through_children] at follows failed status
    refine ⟨?_, ⟨follows.session, ?_, follows.failures⟩, ?_⟩
    · rw [failed]
      rfl
    · exact (TestTree.reset_setStatus i _).trans follows.cases
    · intro k within
      have here : k < below.2.tree.size := Nat.lt_of_lt_of_eq within below.2.size_eq.symm
      change ((below.2.tree.setStatus i _).getD k).status = _
      rw [TestTree.status_setStatus _ here, status k within, failed]
      by_cases self : i = k
      next =>
        rw [if_pos self, if_pos (TestTree.below_iff.2 (.inl self)), ← self]
        rfl
      next => simp only [self, if_false, TestTree.below_iff (i := i), false_or]

end Case

section Runs

theorem run_came : Came s t c [] 0 ⟨s, t, rfl, []⟩ (s.run t c) :=
  runCase_came 0 [] ⟨s, t, rfl, []⟩ (fun _ none => absurd none List.not_mem_nil) ⟨rfl, rfl, rfl⟩

theorem run_status (rooted : t.Rooted) {i : Nat} (inside : i < t.size) :
    ((s.run t c).2.tree.getD i).status = verdict s t (trace s t c) i := by
  rw [run_came.status i inside, if_pos (TestTree.below_root rooted inside)]
  rfl

theorem run_reset : (s.run t c).2.tree.reset = t.reset := run_came.follows.cases

theorem run_emptied : (s.run t c).2.session.emptied = s.emptied := by
  rw [run_came.follows.session]
  rfl

theorem run_children (i : Nat) : (s.run t c).2.tree.children i = t.children i :=
  TestTree.children_of_reset_eq run_reset i

theorem trace_commands :
    (trace s t c).map (fun x => (x.place, x.command)) =
      (0 :: t.walk.map Prod.snd).flatMap fun i => (t.getD i).commands.map fun cmd => (i, cmd) := by
  rw [trace, traceFrom_commands, commandsFrom, TestTree.subtree_root]
  rfl

theorem flatMap_eq_of_nodup {α β : Type} {xs : List α} {x : α} {f : α → List β}
    (distinct : xs.Nodup) (member : x ∈ xs) (others : ∀ y, y ≠ x → f y = []) :
    xs.flatMap f = f x := by
  obtain ⟨before, after, rfl⟩ := List.append_of_mem member
  have apart := List.nodup_middle.1 distinct
  have absent : x ∉ before ++ after := (List.nodup_cons.1 apart).1
  have silent (ys : List α) (outside : x ∉ ys) : ys.flatMap f = [] :=
    List.flatMap_eq_nil_iff.2 fun y inside => others y fun same => outside (same ▸ inside)
  rw [List.flatMap_append, List.flatMap_cons, silent before (by grind), silent after (by grind),
    List.append_nil, List.nil_append]

theorem trace_at (rooted : t.Rooted) {i : Nat} (inside : i < t.size) :
    ((trace s t c).filter fun x => x.place = i).map Step.command = (t.getD i).commands := by
  have pairs : ((trace s t c).filter fun x => x.place = i).map (fun x => (x.place, x.command)) =
      (commandsFrom t 0).filter fun p => p.1 = i := by
    rw [← traceFrom_commands (s := s) (t := t) (c := c) [] (commandsFrom t 0), List.filter_map]
    rfl
  have others (j : Nat) (differ : j ≠ i) :
      (ownCommands t j).filter (fun p => p.1 = i) = [] := by
    simp [ownCommands, List.filter_map, Function.comp_def, differ]
  have own : (ownCommands t i).filter (fun p => p.1 = i) = ownCommands t i := by
    simp [ownCommands]
  have member : i ∈ t.subtree 0 := TestTree.mem_subtree.2 (TestTree.below_root rooted inside)
  rw [commandsFrom, List.filter_flatMap,
    flatMap_eq_of_nodup (t.subtree_nodup 0) member others, own] at pairs
  have commands := congrArg (List.map Prod.snd) pairs
  simpa [ownCommands, Function.comp_def] using commands

theorem run_aggregates (built : t.Built) (s : Session) (c : Context) :
    let tree := (s.run t c).2.tree
    (∀ i < t.size, ((tree.getD i).status = .passed ∨ (tree.getD i).status = .failed) ∧
      ((tree.getD i).status = .failed ↔
        ∃ x ∈ trace s t c, t.Below i x.place ∧ (x.outcome s).error.isSome)) ∧
    (s.run t c).1 = (tree.getD 0).status ∧
    (trace s t c).map (fun x => (x.place, x.command)) =
      (0 :: t.walk.map Prod.snd).flatMap (fun i =>
        (t.getD i).commands.map fun cmd => (i, cmd)) ∧
    (∀ i < t.size, ((trace s t c).filter fun x => x.place = i).map Step.command =
      (t.getD i).commands) ∧
    (∀ before x after, trace s t c = before ++ x :: after →
      x.context = contextAfter s t c before x.place ∧ x.output = outputAfter s before) ∧
    (s.run t c).2.session = { s with output := outputAfter s (trace s t c) } ∧
    (s.run t c).2.failures = (trace s t c).filterMap (Step.failure? s t) ∧
    (∀ i, tree.get? i = (t.get? i).map fun n => { n with status := (tree.getD i).status }) ∧
    (∀ i, tree.children i = t.children i) ∧
    tree.reset = ⟨t.cases.map fun n => { n with status := .notStarted }⟩ := by
  intro tree
  have rooted := built.rooted
  have came : Came s t c [] 0 ⟨s, t, rfl, []⟩ (s.run t c) := run_came
  refine ⟨fun i inside => ?_, ?_, trace_commands, fun i => trace_at rooted, ?_,
    came.follows.session, came.follows.failures, TestTree.get?_of_reset_eq run_reset,
    run_children, run_reset⟩
  · rw [run_status rooted inside]
    exact ⟨verdict_started _ i, verdict_eq_failed⟩
  · rw [run_status rooted rooted.nonempty]
    exact came.verdict
  · intro before x after split
    exact traceFrom_meets split

end Runs

end Runner

def Handler.quiet : Handler := fun s _ c =>
  if s.output.isEmpty then .done s c else .refused s c (.failed "quiet" "something was printed")

def Handler.drain : Handler := fun _ _ c => ⟨c, [], none⟩

namespace TestTree

def quiet : Command := ⟨"quiet", .custom Handler.quiet, []⟩

def drain : Command := ⟨"drain", .custom Handler.drain, []⟩

def noise : Command := ⟨"print", .print, [.ofLine "noise", .ofLine []]⟩

/-- A document with two cases and one below the first, which finds what is printed above it. The
last one, marked as failed, takes that away before it looks. -/
def nested : TestTree :=
  let cases :=
    ((TestTree.new.addChild 0 "above".toList 1).addChild 1 "below".toList 2).addChild 0
      "beside".toList 1
  let quieted := ((cases.addCommand 1 quiet).addCommand 1 noise).addCommand 2 quiet
  ((quieted.addCommand 3 drain).addCommand 3 quiet).setStatus 3 .failed

theorem nested_built : nested.Built := by
  refine .setStatus _ (.addCommand _ (.addCommand _ (.addCommand _ (.addCommand _ (.addCommand _
    (.addChild _ _ (.addChild _ _ (.addChild _ _ .new ?_) ?_) ?_) ?_) ?_) ?_) ?_) ?_) ?_ <;> decide

end TestTree

theorem Runner.run_aggregates_nested :
    let s := Session.new ⟨.default, .empty⟩ id
    let tree := (s.run .nested .empty).2.tree
    TestTree.nested.Built ∧ (tree.getD 1).status = .failed ∧ (tree.getD 3).status = .passed ∧
      (s.run .nested .empty).2.session.output = [] := by
  intro s tree
  obtain ⟨statuses, -, -, -, -, session, -⟩ := run_aggregates TestTree.nested_built s .empty
  refine ⟨TestTree.nested_built, (statuses 1 (by decide)).2.2 ?_,
    (statuses 3 (by decide)).1.resolve_right fun failed => ?_, ?_⟩
  · have found : ((trace s .nested .empty).any fun x =>
      TestTree.nested.Below 1 x.place && (x.outcome s).error.isSome) = true := by decide +kernel
    simpa using found
  · have none : ((trace s .nested .empty).any fun x =>
      TestTree.nested.Below 3 x.place && (x.outcome s).error.isSome) = false := by decide +kernel
    obtain ⟨x, member, below, fails⟩ := (statuses 3 (by decide)).2.1 failed
    have quiet := List.any_eq_false.1 none x member
    simp [below, fails] at quiet
  · rw [session]
    decide +kernel

end Docspec
