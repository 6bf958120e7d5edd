import Docspec.Proofs.Execution
import Mathlib.Data.List.Chain

set_option autoImplicit false

namespace Docspec

namespace TestTree

def showing : Command := ⟨"print", .print, [.ofLine "\x7b\x7b x \x7d\x7d", .ofLine []]⟩

def setting (value : Text) : Command := ⟨"set", .set, [.ofLine "x", .ofLine value]⟩

def rebinding : TestTree :=
  let cases :=
    ((TestTree.new.addChild 0 "upper".toList 1).addChild 1 "lower".toList 2).addChild 0
      "beside".toList 1
  let binds := (cases.addCommand 1 (setting "1")).addCommand 2 (setting "2")
  let prints := ((binds.addCommand 1 ⟨"set", .set, []⟩).addCommand 0 showing).addCommand 1 showing
  (prints.addCommand 2 showing).addCommand 3 showing

theorem rebinding_built : rebinding.Built := by
  refine .addCommand _ (.addCommand _ (.addCommand _ (.addCommand _ (.addCommand _ (.addCommand _
    (.addCommand _ (.addChild _ _ (.addChild _ _ (.addChild _ _ .new ?_) ?_) ?_) ?_) ?_) ?_) ?_) ?_)
    ?_) ?_ <;> decide

/-- A walk as a loop: the case on top of the stack comes next and gives way to its children, the
first of them on top. `Walks t stack out` tells that the loop ends and what it has come to. -/
inductive Walks (t : TestTree) : List (Nat × Nat) → List (Nat × Nat) → Prop
  | done : Walks t [] []
  | visit {depth i : Nat} {stack out : List (Nat × Nat)} :
    Walks t ((t.children i).map (fun j => (depth + 1, j)) ++ stack) out →
    Walks t ((depth, i) :: stack) ((depth, i) :: out)

section Loop

variable {t : TestTree}

theorem Walks.cases_below {depth : Nat} {js : List Nat} {stack out : List (Nat × Nat)}
    (each : ∀ j ∈ js, ∀ stack out, t.Walks stack out →
      t.Walks ((depth, j) :: stack) (t.walkFrom depth j ++ out)) (rest : t.Walks stack out) :
    t.Walks (js.map (fun j => (depth, j)) ++ stack) (js.flatMap (t.walkFrom depth) ++ out) := by
  induction js with
  | nil => exact rest
  | cons j js ih =>
    have later := ih fun k member => each k (List.mem_cons_of_mem j member)
    rw [List.flatMap_cons, List.append_assoc]
    exact each j List.mem_cons_self _ _ later

-- While a case is on the stack the loop comes to all that is below it before the rest.
theorem Walks.case_on_top (i depth : Nat) {stack out : List (Nat × Nat)}
    (rest : t.Walks stack out) : t.Walks ((depth, i) :: stack) (t.walkFrom depth i ++ out) := by
  induction i using t.children_induction generalizing depth stack out with
  | step i ih =>
    rw [walkFrom_eq]
    exact .visit (cases_below (fun j member _ _ => ih j member (depth + 1)) rest)

theorem walks_walk : t.Walks ((t.children 0).map fun j => (0, j)) t.walk := by
  have walked : t.Walks ((t.children 0).map (fun j => (0, j)) ++ []) _ :=
    Walks.cases_below (fun j _ _ _ => Walks.case_on_top j 0) .done
  simpa [walk] using walked

theorem Walks.unique {stack out out' : List (Nat × Nat)} (left : t.Walks stack out)
    (right : t.Walks stack out') : out = out' := by
  induction left generalizing out' with
  | done => cases right with | done => rfl
  | visit _ ih => cases right with | visit rest => rw [ih rest]

end Loop

theorem lineage_chain {t : TestTree} (rooted : t.Rooted) {i : Nat} (inside : i < t.size) :
    (t.lineage i ++ [i]).head? = some 0 ∧
      (t.lineage i ++ [i]).IsChain fun j k => k ∈ t.children j := by
  induction below_root rooted inside with
  | self => simp [lineage_root]
  | @child j k below member ih =>
    obtain ⟨first, chain⟩ := ih (below.inside rooted.nonempty)
    rw [lineage_child member]
    refine ⟨?_, ?_⟩
    · rw [List.head?_append, first]
      rfl
    · rw [List.isChain_append]
      refine ⟨chain, List.isChain_singleton k, ?_⟩
      simpa using member

end TestTree

namespace Runner

/-- What a case prints when the commands of the cases above it are carried out before its own, for
the context they leave alone. -/
def replay (s : Session) (t : TestTree) (c : Context) (i : Nat) : List Printed :=
  let above := (t.lineage i).flatMap fun j => (t.getD j).commands
  let start := (runCommands (t.getD i).name above c s.emptied).1
  (runCommands (t.getD i).name (t.getD i).commands start s.emptied).2.1.output

theorem runCommands_behind (name : Text) (place : Nat) {commands : List Command}
    (adds : ∀ cmd ∈ commands, cmd.AddsOnly) (s : Session) (out : List Printed) (c : Context) :
    (runCommands name commands c { s with output := out }).1 = leave s commands c ∧
      (runCommands name commands c { s with output := out }).2.1.output =
        out ++ printedOf s (carryOut s place commands c) := by
  induction commands generalizing out c with
  | nil => simp [runCommands, leave, carryOut, printedOf]
  | cons cmd more ih =>
    obtain ⟨own, others⟩ := List.forall_mem_cons.1 adds
    let o := cmd.execute s.emptied c
    have executed : cmd.execute { s with output := out } c = o.behind out :=
      Command.execute_behind own { s with output := out } c
    obtain ⟨context, output⟩ := ih others (out ++ o.output) o.context
    have shown : printedOf s (carryOut s place (cmd :: more) c) =
        o.output ++ printedOf s (carryOut s place more o.context) := rfl
    rw [runCommands, executed, leave, List.foldl_cons, shown, ← List.append_assoc]
    simp only [Outcome.behind]
    cases o.error <;> exact ⟨context, output⟩

theorem replay_eq {t : TestTree} (adds : t.AddsOnly) (s : Session) (c : Context) (i : Nat) :
    replay s t c i = printedOf s (executionsOf s t c i) := by
  have above : ∀ cmd ∈ (t.lineage i).flatMap fun j => (t.getD j).commands, cmd.AddsOnly := by
    intro cmd member
    obtain ⟨j, -, inside⟩ := List.mem_flatMap.1 member
    exact adds j cmd inside
  rw [replay, Session.emptied, (runCommands_behind _ i above s [] c).1,
    (runCommands_behind _ i (adds i) s [] _).2]
  rfl

end Runner

namespace Session

open Runner

variable {t : TestTree}

theorem run_replays (adds : t.AddsOnly) (built : t.Built) (s : Session) (c : Context) :
    (s.run t c).2.session.output =
        s.output ++ replay s t c 0 ++ t.walk.flatMap (fun p => replay s t c p.2) ∧
      (∀ out, t.Walks ((t.children 0).map fun j => (0, j)) out ↔ out = t.walk) ∧
      ∀ i < t.size, (t.lineage i ++ [i]).head? = some 0 ∧
        (t.lineage i ++ [i]).IsChain fun j k => k ∈ t.children j := by
  refine ⟨?_, fun out => ⟨fun walked => walked.unique TestTree.walks_walk, ?_⟩, fun i inside => ?_⟩
  · rw [run_output adds, executions, printedOf, List.flatMap_assoc, List.flatMap_cons,
      List.flatMap_map, List.append_assoc]
    simp only [replay_eq adds]
    rfl
  · rintro rfl
    exact TestTree.walks_walk
  · exact TestTree.lineage_chain built.rooted inside

theorem run_replays_rebinding :
    let s := Session.new ⟨.default, .empty⟩ id
    let c := Context.empty.set "x" (.int 0)
    TestTree.rebinding.AddsOnly ∧ TestTree.rebinding.Built ∧
      (s.run .rebinding c).2.session.output =
        [⟨"0", none⟩, ⟨"1", none⟩, ⟨"2", none⟩, ⟨"0", none⟩] := by
  intro s c
  have adds : TestTree.rebinding.AddsOnly := TestTree.addsOnly_of_builtin rfl
  obtain ⟨output, -, -⟩ := run_replays adds TestTree.rebinding_built s c
  refine ⟨adds, TestTree.rebinding_built, output.trans ?_⟩
  decide +kernel

end Session

end Docspec
