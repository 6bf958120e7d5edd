import Docspec.Proofs.TreeShape
import Docspec.Runner

set_option autoImplicit false

namespace Docspec

structure Step where
  place : Nat
  command : Command
  context : Context
  output : List Printed

namespace Step

def outcome (s : Session) (x : Step) : Outcome :=
  x.command.execute { s with output := x.output } x.context

def fails (s : Session) (x : Step) : Bool := (x.outcome s).error.isSome

def failure? (s : Session) (t : TestTree) (x : Step) : Option Failure :=
  (x.outcome s).error.map fun err => ⟨(t.getD x.place).name, x.command, err⟩

end Step

namespace Runner

def ownCommands (t : TestTree) (i : Nat) : List (Nat × Command) :=
  (t.getD i).commands.map fun cmd => (i, cmd)

def commandsFrom (t : TestTree) (i : Nat) : List (Nat × Command) :=
  (t.subtree i).flatMap (ownCommands t)

section Trace

variable (s : Session) (t : TestTree) (c : Context)

/-- The context in a case: what the last step in it or above it has left. -/
def contextAfter (done : List Step) (i : Nat) : Context :=
  ((done.filter fun x => t.Below x.place i).getLast?.map fun x => (x.outcome s).context).getD c

def outputAfter (done : List Step) : List Printed :=
  (done.getLast?.map fun x => (x.outcome s).output).getD s.output

def traceFrom (done : List Step) : List (Nat × Command) → List Step
  | [] => []
  | (i, cmd) :: more =>
    let x : Step := ⟨i, cmd, contextAfter s t c done i, outputAfter s done⟩
    x :: traceFrom (done ++ [x]) more

def trace : List Step := traceFrom s t c [] (commandsFrom t 0)

/-- The steps taken by the time a run has come through a case and some of its children. -/
def through (done : List Step) (i : Nat) (js : List Nat) : List Step :=
  done ++ traceFrom s t c done (ownCommands t i ++ js.flatMap (commandsFrom t))

end Trace

def Fresh (t : TestTree) (done : List Step) (i : Nat) : Prop := ∀ x ∈ done, ¬ t.Below i x.place

section Steps

variable {s : Session} {t : TestTree} {c : Context} {done : List Step} {i j : Nat}

theorem commandsFrom_eq (t : TestTree) (i : Nat) :
    commandsFrom t i = ownCommands t i ++ (t.children i).flatMap (commandsFrom t) := by
  rw [commandsFrom, TestTree.subtree_eq, List.flatMap_cons, List.flatMap_assoc]
  rfl

theorem place_of_mem_ownCommands {p : Nat × Command} (member : p ∈ ownCommands t i) :
    p.1 = i := by
  obtain ⟨cmd, -, rfl⟩ := List.mem_map.1 member
  rfl

theorem below_of_mem_commandsFrom {p : Nat × Command} (member : p ∈ commandsFrom t i) :
    t.Below i p.1 := by
  obtain ⟨j, inside, own⟩ := List.mem_flatMap.1 member
  rw [place_of_mem_ownCommands own]
  exact TestTree.mem_subtree.1 inside

theorem traceFrom_append (done : List Step) (ps qs : List (Nat × Command)) :
    traceFrom s t c done (ps ++ qs) =
      traceFrom s t c done ps ++ traceFrom s t c (done ++ traceFrom s t c done ps) qs := by
  induction ps generalizing done with
  | nil => simp [traceFrom]
  | cons p ps ih => simp [traceFrom, ih]

theorem traceFrom_commands (done : List Step) (ps : List (Nat × Command)) :
    (traceFrom s t c done ps).map (fun x => (x.place, x.command)) = ps := by
  induction ps generalizing done with
  | nil => rfl
  | cons p ps ih => simp [traceFrom, ih]

theorem mem_of_mem_traceFrom {ps : List (Nat × Command)} {x : Step}
    (member : x ∈ traceFrom s t c done ps) : (x.place, x.command) ∈ ps := by
  rw [← traceFrom_commands (s := s) (t := t) (c := c) done ps]
  exact List.mem_map_of_mem member

theorem traceFrom_meets {ps : List (Nat × Command)} {before after : List Step} {x : Step}
    (split : traceFrom s t c done ps = before ++ x :: after) :
    x.context = contextAfter s t c (done ++ before) x.place ∧
      x.output = outputAfter s (done ++ before) := by
  induction ps generalizing done before with
  | nil => exact absurd split.symm (by simp [traceFrom])
  | cons p ps ih =>
    rw [traceFrom] at split
    cases before with
    | nil =>
      obtain ⟨rfl, -⟩ := List.cons.inj split
      simp
    | cons y before =>
      obtain ⟨rfl, rest⟩ := List.cons.inj split
      simpa using ih rest

theorem outputAfter_snoc (x : Step) : outputAfter s (done ++ [x]) = (x.outcome s).output := by
  simp [outputAfter]

theorem contextAfter_snoc {x : Step} (above : t.Below x.place i) :
    contextAfter s t c (done ++ [x]) i = (x.outcome s).context := by
  simp [contextAfter, above]

theorem contextAfter_append {later : List Step} (apart : ∀ x ∈ later, ¬ t.Below x.place i) :
    contextAfter s t c (done ++ later) i = contextAfter s t c done i := by
  have none : later.filter (fun x => t.Below x.place i) = [] :=
    List.filter_eq_nil_iff.2 fun x member => by simpa using apart x member
  rw [contextAfter, List.filter_append, none, List.append_nil, contextAfter]

theorem contextAfter_parent (member : j ∈ t.children i) (fresh : Fresh t done j) :
    contextAfter s t c done j = contextAfter s t c done i := by
  have same : done.filter (fun x => t.Below x.place j) =
      done.filter fun x => t.Below x.place i := by
    apply List.filter_congr
    intro x inside
    have other : x.place ≠ j := fun same => fresh x inside (same ▸ .self)
    rw [decide_eq_decide]
    exact ⟨fun below => below.parent_of_ne other member, fun below => .child below member⟩
  rw [contextAfter, same, contextAfter]

theorem through_snoc (done : List Step) (i : Nat) (js : List Nat) (j : Nat) :
    through s t c done i (js ++ [j]) = through s t c done i js ++
      traceFrom s t c (through s t c done i js) (commandsFrom t j) := by
  simp only [through, List.flatMap_append, List.flatMap_singleton, ← List.append_assoc]
  rw [traceFrom_append _ _ (commandsFrom t j)]
  simp only [List.append_assoc]

theorem through_children (done : List Step) (i : Nat) :
    through s t c done i (t.children i) = done ++ traceFrom s t c done (commandsFrom t i) := by
  rw [through, commandsFrom_eq]

theorem mem_through {js : List Nat} {x : Step} (member : x ∈ through s t c done i js) :
    x ∈ done ∨ x.place = i ∨ ∃ j ∈ js, t.Below j x.place := by
  rcases List.mem_append.1 member with old | new
  · exact .inl old
  · rcases List.mem_append.1 (mem_of_mem_traceFrom new) with own | below
    · exact .inr (.inl (place_of_mem_ownCommands own))
    · obtain ⟨j, inside, from_j⟩ := List.mem_flatMap.1 below
      exact .inr (.inr ⟨j, inside, below_of_mem_commandsFrom from_j⟩)

section Child

variable {before after : List Nat} (children : t.children i = before ++ j :: after)
include children

theorem sibling_apart {k m : Nat} (earlier : k ∈ before) (below : t.Below k m) :
    ¬ t.Below j m := by
  intro below'
  have member (k' : Nat) (inside : k' ∈ before ++ j :: after) : k' ∈ t.children i :=
    children ▸ inside
  have same := TestTree.Below.child_unique (member k (by simp [earlier])) (member j (by simp))
    below below'
  have sorted := children ▸ TestTree.children_sorted t i
  exact absurd same (Nat.ne_of_lt ((List.pairwise_append.1 sorted).2.2 k earlier j (by simp)))

theorem fresh_child (fresh : Fresh t done i) : Fresh t (through s t c done i before) j := by
  have member : j ∈ t.children i := children ▸ by simp
  intro x inside below
  rcases mem_through inside with old | own | ⟨k, earlier, inSibling⟩
  · exact fresh x old ((TestTree.Below.of_child member).trans below)
  · have above := (own ▸ below).le
    have later := (TestTree.mem_children.1 member).1
    omega
  · exact sibling_apart children earlier inSibling below

theorem contextAfter_child (fresh : Fresh t done i) :
    contextAfter s t c (through s t c done i before) j =
      contextAfter s t c (through s t c done i []) i := by
  have member : j ∈ t.children i := children ▸ by simp
  have split : through s t c done i before = through s t c done i [] ++
      traceFrom s t c (through s t c done i []) (before.flatMap (commandsFrom t)) := by
    simp only [through, List.flatMap_nil, List.append_nil, traceFrom_append, List.append_assoc]
  have freshFirst : Fresh t (through s t c done i []) j := by
    intro x inside
    exact fresh_child children fresh x (split ▸ List.mem_append_left _ inside)
  -- What is done in between is done below the children before, none of which is above this one.
  rw [split, contextAfter_append, contextAfter_parent member freshFirst]
  intro x inside below
  obtain ⟨k, earlier, inSibling⟩ := List.mem_flatMap.1 (mem_of_mem_traceFrom inside)
  exact sibling_apart children earlier ((below_of_mem_commandsFrom inSibling).trans below) .self

end Child

theorem runCommands_trace (commands : List Command) (done : List Step) :
    let now := done ++ traceFrom s t c done (commands.map fun cmd => (i, cmd))
    runCommands (t.getD i).name commands (contextAfter s t c done i)
        { s with output := outputAfter s done } =
      (contextAfter s t c now i, { s with output := outputAfter s now },
        (traceFrom s t c done (commands.map fun cmd => (i, cmd))).filterMap
          (Step.failure? s t)) := by
  induction commands generalizing done with
  | nil => simp [runCommands, traceFrom]
  | cons cmd more ih =>
    let x : Step := ⟨i, cmd, contextAfter s t c done i, outputAfter s done⟩
    have context : contextAfter s t c (done ++ [x]) i = (x.outcome s).context :=
      contextAfter_snoc .self
    have output : outputAfter s (done ++ [x]) = (x.outcome s).output := outputAfter_snoc x
    have rest := ih (done ++ [x])
    rw [context, output] at rest
    have executed : cmd.execute { s with output := outputAfter s done }
        (contextAfter s t c done i) = x.outcome s := rfl
    simp only [runCommands, executed, rest, List.map_cons, traceFrom, List.filterMap_cons,
      List.append_assoc, List.singleton_append, x]
    rw [Step.failure?]
    cases (Step.outcome s ⟨i, cmd, contextAfter s t c done i, outputAfter s done⟩).error <;> rfl

end Steps

end Runner

end Docspec
