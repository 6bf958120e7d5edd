import Docspec.Command.Builtin
import Docspec.TestTree

set_option autoImplicit false

namespace Docspec

structure Failure where
  caseName : Text
  command : Command
  error : CommandError

/-- A tree of `n` cases while it runs. No case comes or goes, so that the numbers of children stay
in bounds. -/
structure Run (n : Nat) where
  session : Session
  tree : TestTree
  size_eq : tree.size = n
  failures : List Failure

def Run.setStatus {n : Nat} (r : Run n) (i : Nat) (status : Status) : Run n where
  session := r.session
  tree := r.tree.setStatus i status
  size_eq := by simp [TestTree.size, TestTree.setStatus, TestTree.modify, ← r.size_eq]
  failures := r.failures

namespace Runner

def runCommands (caseName : Text) :
    List Command → Context → Session → Context × Session × List Failure
  | [], c, s => (c, s, [])
  | cmd :: more, c, s =>
    let o := cmd.execute s c
    let (last, after, failures) :=
      runCommands caseName more o.context { s with output := o.output }
    match o.error with
    | some err => (last, after, ⟨caseName, cmd, err⟩ :: failures)
    | none => (last, after, failures)

/-- Runs a case in a context and then every child in a copy of what its commands make of it. A
failure stops nothing. -/
def runCase {n : Nat} (i : Nat) (c : Context) (r : Run n) : Status × Run n :=
  let here := r.tree.getD i
  let (left, session, failures) := runCommands here.name here.commands c r.session
  let started := { r with session := session, failures := r.failures ++ failures }
  let (failed, ran) := (r.tree.children i).attach.foldl (fun (failed, u) ⟨j, _⟩ =>
    let (status, u) := runCase j left u
    (failed || status == .failed, u)) (!failures.isEmpty, started)
  let status := if failed then .failed else .passed
  (status, ran.setStatus i status)
termination_by n - i
decreasing_by
  have later := TestTree.lt_size_of_mem_children ‹_›
  have size := r.size_eq
  omega

end Runner

def Session.run (s : Session) (t : TestTree) (c : Context) : Status × Run t.size :=
  Runner.runCase 0 c ⟨s, t, rfl, []⟩

end Docspec
