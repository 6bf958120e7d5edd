import Docspec.Proofs.Aggregation

set_option autoImplicit false

namespace Docspec

def Outcome.behind (before : List Printed) (o : Outcome) : Outcome :=
  { o with output := before ++ o.output }

/-- Looks at nothing that was printed, and only adds to it. -/
def Handler.AddsOnly (h : Handler) : Prop :=
  ∀ (s : Session) (args : List Argument) (c : Context),
    h s args c = (h s.emptied args c).behind s.output

def Command.AddsOnly (cmd : Command) : Prop := ∀ h, cmd.kind = .custom h → Handler.AddsOnly h

def TestTree.AddsOnly (t : TestTree) : Prop := ∀ i, ∀ cmd ∈ (t.getD i).commands, cmd.AddsOnly

def CommandKind.isBuiltin : CommandKind → Bool
  | .set | .print => true
  | .custom _ => false

theorem TestTree.addsOnly_of_builtin {t : TestTree}
    (builtin : t.cases.all fun n => n.commands.all fun cmd => cmd.kind.isBuiltin) :
    t.AddsOnly := by
  intro i cmd member h custom
  rw [getD] at member
  cases found : t.get? i with
  | none =>
    rw [found] at member
    exact absurd member List.not_mem_nil
  | some n =>
    rw [found] at member
    have known := List.all_eq_true.1 (List.all_eq_true.1 builtin n (List.mem_of_getElem? found))
      cmd member
    rw [custom] at known
    cases known

theorem Command.execute_behind {cmd : Command} (adds : cmd.AddsOnly) (s : Session) (c : Context) :
    cmd.execute s c = (cmd.execute s.emptied c).behind s.output := by
  obtain ⟨id, kind, args⟩ := cmd
  cases kind with
  | custom h => exact adds h rfl s args c
  | set =>
    change SetCommand.execute s args c = (SetCommand.execute s.emptied args c).behind s.output
    by_cases pair : args.length = 2
    next =>
      obtain ⟨target, value, rfl⟩ := List.length_eq_two.1 pair
      have same : SetCommand.bound s.emptied c target value =
        SetCommand.bound s c target value := rfl
      rw [SetCommand.execute_pair, SetCommand.execute_pair, same]
      cases SetCommand.bound s c target value <;>
        simp [Outcome.done, Outcome.refused, Outcome.behind, Session.emptied]
    next =>
      simp [SetCommand.execute, checkArity_of_ne pair, Except.bind, Outcome.refused,
        Outcome.behind, Session.emptied]
  | print =>
    change PrintCommand.execute s args c = (PrintCommand.execute s.emptied args c).behind s.output
    by_cases pair : args.length = 2
    next =>
      obtain ⟨text, destination, rfl⟩ := List.length_eq_two.1 pair
      have same : PrintCommand.printed s.emptied c text destination =
        PrintCommand.printed s c text destination := rfl
      rw [PrintCommand.execute_pair, PrintCommand.execute_pair, same]
      cases PrintCommand.printed s c text destination <;>
        simp [Outcome.refused, Outcome.behind, Session.emptied]
    next =>
      simp [PrintCommand.execute, checkArity_of_ne pair, Except.bind, Outcome.refused,
        Outcome.behind, Session.emptied]

structure Execution where
  place : Nat
  command : Command
  context : Context

namespace Execution

def outcome (s : Session) (x : Execution) : Outcome := x.command.execute s.emptied x.context

def fails (s : Session) (x : Execution) : Bool := (x.outcome s).error.isSome

end Execution

namespace Step

def execution (x : Step) : Execution := ⟨x.place, x.command, x.context⟩

theorem outcome_eq {s : Session} {x : Step} (adds : x.command.AddsOnly) :
    x.outcome s = (x.execution.outcome s).behind x.output :=
  Command.execute_behind adds { s with output := x.output } x.context

end Step

namespace Runner

def leave (s : Session) (commands : List Command) (c : Context) : Context :=
  commands.foldl (fun c cmd => (cmd.execute s.emptied c).context) c

def carryOut (s : Session) (place : Nat) : List Command → Context → List Execution
  | [], _ => []
  | cmd :: more, c => ⟨place, cmd, c⟩ :: carryOut s place more (cmd.execute s.emptied c).context

def entry (s : Session) (t : TestTree) (c : Context) (i : Nat) : Context :=
  leave s ((t.lineage i).flatMap fun j => (t.getD j).commands) c

def executionsOf (s : Session) (t : TestTree) (c : Context) (i : Nat) : List Execution :=
  carryOut s i (t.getD i).commands (entry s t c i)

def executionsBelow (s : Session) (t : TestTree) (c : Context) (i : Nat) : List Execution :=
  (t.subtree i).flatMap (executionsOf s t c)

def executions (s : Session) (t : TestTree) (c : Context) : List Execution :=
  (0 :: t.walk.map Prod.snd).flatMap (executionsOf s t c)

def printedOf (s : Session) (xs : List Execution) : List Printed :=
  xs.flatMap fun x => (x.outcome s).output

def failureOf (s : Session) (t : TestTree) (x : Execution) : Option Failure :=
  (x.outcome s).error.map fun err => ⟨(t.getD x.place).name, x.command, err⟩

def statusOf (s : Session) (xs : List Execution) : Status :=
  if xs.any (Execution.fails s) then .failed else .passed

section Executions

variable {s : Session} {t : TestTree} {c : Context}

theorem executions_eq : executions s t c = executionsBelow s t c 0 := by
  rw [executions, executionsBelow, TestTree.subtree_root]

theorem executionsBelow_eq (i : Nat) :
    executionsBelow s t c i =
      executionsOf s t c i ++ (t.children i).flatMap (executionsBelow s t c) := by
  rw [executionsBelow, TestTree.subtree_eq, List.flatMap_cons, List.flatMap_assoc]
  rfl

theorem entry_root : entry s t c 0 = c := by
  rw [entry, TestTree.lineage_root]
  rfl

theorem entry_child {i j : Nat} (member : j ∈ t.children i) :
    entry s t c j = leave s (t.getD i).commands (entry s t c i) := by
  rw [entry, TestTree.lineage_child member, List.flatMap_append, List.flatMap_singleton, leave,
    List.foldl_append]
  rfl

theorem carryOut_place {place : Nat} {commands : List Command} {c : Context} {x : Execution}
    (member : x ∈ carryOut s place commands c) : x.place = place := by
  induction commands generalizing c with
  | nil => exact absurd member List.not_mem_nil
  | cons cmd more ih =>
    rcases List.mem_cons.1 member with rfl | later
    · rfl
    · exact ih later

theorem mem_executionsBelow (rooted : t.Rooted) {i : Nat} (inside : i < t.size) {x : Execution} :
    x ∈ executionsBelow s t c i ↔ x ∈ executions s t c ∧ t.Below i x.place := by
  simp only [executions_eq, executionsBelow, List.mem_flatMap, TestTree.mem_subtree]
  constructor
  · rintro ⟨j, below, member⟩
    have place : x.place = j := carryOut_place member
    exact ⟨⟨j, (TestTree.below_root rooted inside).trans below, member⟩, place ▸ below⟩
  · rintro ⟨⟨j, -, member⟩, below⟩
    have place : x.place = j := carryOut_place member
    exact ⟨j, place ▸ below, member⟩

end Executions

section AddsOnly

variable {s : Session} {t : TestTree} {c : Context}

theorem addsOnly_of_mem_commandsFrom (adds : t.AddsOnly) {i : Nat} {p : Nat × Command}
    (member : p ∈ commandsFrom t i) : p.2.AddsOnly := by
  obtain ⟨j, -, own⟩ := List.mem_flatMap.1 member
  obtain ⟨cmd, inside, rfl⟩ := List.mem_map.1 own
  exact adds j cmd inside

theorem traceFrom_own (i : Nat) {commands : List Command} (adds : ∀ cmd ∈ commands, cmd.AddsOnly)
    (done : List Step) :
    let new := traceFrom s t c done (commands.map fun cmd => (i, cmd))
    new.map Step.execution = carryOut s i commands (contextAfter s t c done i) ∧
      contextAfter s t c (done ++ new) i = leave s commands (contextAfter s t c done i) := by
  induction commands generalizing done with
  | nil => simp [traceFrom, carryOut, leave]
  | cons cmd more ih =>
    obtain ⟨own, others⟩ := List.forall_mem_cons.1 adds
    let x : Step := ⟨i, cmd, contextAfter s t c done i, outputAfter s done⟩
    have left : contextAfter s t c (done ++ [x]) i =
        (cmd.execute s.emptied (contextAfter s t c done i)).context := by
      rw [contextAfter_snoc .self, Step.outcome_eq own]
      rfl
    obtain ⟨carried, last⟩ := ih others (done ++ [x])
    rw [left] at carried last
    refine ⟨congrArg (x.execution :: ·) carried, ?_⟩
    simpa [traceFrom, leave, x] using last

-- Where nothing depends on the output, a command meets what the cases above it leave alone.
theorem traceFrom_below (adds : t.AddsOnly) (i : Nat) : ∀ done, Fresh t done i →
    contextAfter s t c done i = entry s t c i →
    (traceFrom s t c done (commandsFrom t i)).map Step.execution = executionsBelow s t c i := by
  induction i using t.children_induction with
  | step i ih =>
    intro done fresh start
    obtain ⟨own, left⟩ := traceFrom_own (s := s) (t := t) (c := c) i (adds i) done
    have below (before after : List Nat) (children : t.children i = before ++ after) :
        (traceFrom s t c (through s t c done i before)
          (after.flatMap (commandsFrom t))).map Step.execution =
            after.flatMap (executionsBelow s t c) := by
      induction after generalizing before with
      | nil => rfl
      | cons j after rest =>
        have member : j ∈ t.children i := children ▸ by simp
        have context : contextAfter s t c (through s t c done i before) j = entry s t c j := by
          rw [contextAfter_child children fresh, entry_child member, ← start, ← left]
          simp only [through, List.flatMap_nil, List.append_nil]
          rfl
        have first := ih j member _ (fresh_child children fresh) context
        rw [List.flatMap_cons, traceFrom_append, List.map_append, first, ← through_snoc,
          rest (before ++ [j]) (by simpa using children), List.flatMap_cons]
    have children := below [] (t.children i) rfl
    rw [through, List.flatMap_nil, List.append_nil] at children
    rw [commandsFrom_eq, traceFrom_append, List.map_append, children, executionsBelow_eq,
      executionsOf, ← start, ← own]
    rfl

theorem trace_executions (adds : t.AddsOnly) :
    (trace s t c).map Step.execution = executions s t c := by
  rw [executions_eq]
  exact traceFrom_below adds 0 [] (fun _ none => absurd none List.not_mem_nil) entry_root.symm

theorem addsOnly_of_mem_trace (adds : t.AddsOnly) {x : Step} (member : x ∈ trace s t c) :
    x.command.AddsOnly :=
  addsOnly_of_mem_commandsFrom adds (mem_of_mem_traceFrom member)

theorem outputAfter_traceFrom {ps : List (Nat × Command)} (adds : ∀ p ∈ ps, p.2.AddsOnly)
    (done : List Step) :
    outputAfter s (done ++ traceFrom s t c done ps) =
      outputAfter s done ++ printedOf s ((traceFrom s t c done ps).map Step.execution) := by
  induction ps generalizing done with
  | nil => simp [traceFrom, printedOf]
  | cons p ps ih =>
    obtain ⟨own, others⟩ := List.forall_mem_cons.1 adds
    let x : Step := ⟨p.1, p.2, contextAfter s t c done p.1, outputAfter s done⟩
    have left : outputAfter s (done ++ [x]) =
        outputAfter s done ++ (x.execution.outcome s).output := by
      rw [outputAfter_snoc, Step.outcome_eq own]
      rfl
    have later := ih others (done ++ [x])
    rw [left] at later
    simpa [traceFrom, printedOf, x] using later

theorem run_output (adds : t.AddsOnly) :
    (s.run t c).2.session.output = s.output ++ printedOf s (executions s t c) := by
  rw [run_came.follows.session, ← trace_executions adds]
  exact outputAfter_traceFrom (fun p => addsOnly_of_mem_commandsFrom adds) []

theorem run_failures (adds : t.AddsOnly) :
    (s.run t c).2.failures = (executions s t c).filterMap (failureOf s t) := by
  have failures : (s.run t c).2.failures = (trace s t c).filterMap (Step.failure? s t) :=
    run_came.follows.failures
  rw [failures, ← trace_executions adds, List.filterMap_map]
  apply List.filterMap_congr
  intro x member
  rw [Step.failure?, Step.outcome_eq (addsOnly_of_mem_trace adds member)]
  rfl

theorem run_statusOf (adds : t.AddsOnly) (rooted : t.Rooted) {i : Nat} (inside : i < t.size) :
    ((s.run t c).2.tree.getD i).status = statusOf s (executionsBelow s t c i) := by
  have same : failsBelow s t (trace s t c) i =
      (executionsBelow s t c i).any (Execution.fails s) := by
    rw [Bool.eq_iff_iff, failsBelow, List.any_eq_true, List.any_eq_true]
    simp only [mem_executionsBelow rooted inside, ← trace_executions adds, List.mem_map,
      Bool.and_eq_true, decide_eq_true_eq]
    constructor
    · rintro ⟨x, member, below, fails⟩
      refine ⟨x.execution, ⟨⟨x, member, rfl⟩, below⟩, ?_⟩
      rwa [Step.fails, Step.outcome_eq (addsOnly_of_mem_trace adds member)] at fails
    · rintro ⟨-, ⟨⟨x, member, rfl⟩, below⟩, fails⟩
      refine ⟨x, member, below, ?_⟩
      rwa [Step.fails, Step.outcome_eq (addsOnly_of_mem_trace adds member)]
  rw [run_status rooted inside, verdict, same, statusOf]

end AddsOnly

end Runner

end Docspec
