import Docspec.Command.Basic

set_option autoImplicit false

namespace Docspec

inductive Status
  | notStarted
  | passed
  | failed
  | skipped
  | other
deriving DecidableEq

def Status.display : Status → Text
  | .notStarted => "not_started"
  | .passed => "passed"
  | .failed => "failed"
  | .skipped => "skipped"
  | .other => "other"

def Status.ofText? (t : Text) : Option Status :=
  [Status.notStarted, .passed, .failed, .skipped, .other].find? fun s => s.display = t

structure TestCase where
  name : Text
  level : Nat
  status : Status
  commands : List Command
  parent : Option Nat

def TestCase.isPassed (c : TestCase) : Bool := c.status == .passed

def rootName : Text := "__root__"

/-- Case 0 is the document. -/
structure TestTree where
  cases : List TestCase

namespace TestTree

def root : TestCase := ⟨rootName, 0, .notStarted, [], none⟩

def new : TestTree := ⟨[root]⟩

def size (t : TestTree) : Nat := t.cases.length

def isEmpty (t : TestTree) : Bool := t.size == 1

def get? (i : Nat) (t : TestTree) : Option TestCase := t.cases[i]?

def getD (i : Nat) (t : TestTree) : TestCase := (t.get? i).getD root

def addChild (parent : Nat) (name : Text) (level : Nat) (t : TestTree) : TestTree :=
  ⟨t.cases ++ [⟨name, level, .notStarted, [], some parent⟩]⟩

def modify (i : Nat) (f : TestCase → TestCase) (t : TestTree) : TestTree :=
  ⟨t.cases.modify i f⟩

def addCommand (i : Nat) (c : Command) (t : TestTree) : TestTree :=
  t.modify i fun n => { n with commands := n.commands ++ [c] }

def setStatus (i : Nat) (s : Status) (t : TestTree) : TestTree :=
  t.modify i fun n => { n with status := s }

def reset (t : TestTree) : TestTree :=
  ⟨t.cases.map fun n => { n with status := .notStarted }⟩

def children (t : TestTree) (i : Nat) : List Nat :=
  (t.cases.zipIdx.filter fun (c, j) => i < j && c.parent == some i).map Prod.snd

theorem mem_children {t : TestTree} {i j : Nat} :
    j ∈ t.children i ↔ i < j ∧ ∃ c, t.get? j = some c ∧ c.parent = some i := by
  simp only [children, get?, List.mem_map, List.mem_filter, Bool.and_eq_true, decide_eq_true_eq,
    beq_iff_eq, Prod.exists, List.mem_zipIdx_iff_getElem?]
  constructor
  · rintro ⟨c, k, ⟨hc, hk, hp⟩, rfl⟩
    exact ⟨hk, c, hc, hp⟩
  · rintro ⟨hj, c, hc, hp⟩
    exact ⟨c, j, ⟨hc, hj, hp⟩, rfl⟩

theorem lt_size_of_mem_children {t : TestTree} {i j : Nat} (h : j ∈ t.children i) :
    i < j ∧ j < t.size := by
  obtain ⟨hj, c, hc, _⟩ := mem_children.1 h
  exact ⟨hj, (List.getElem?_eq_some_iff.1 hc).1⟩

def child? (t : TestTree) (i : Nat) (name : Text) : Option Nat :=
  (t.children i).find? fun j => (t.getD j).name = name

def find? (t : TestTree) (path : List Text) : Option Nat := path.foldlM t.child? 0

def childCounts (t : TestTree) (i : Nat) : Nat × Nat :=
  (((t.children i).filter fun j => (t.getD j).isPassed).length, (t.children i).length)

structure Summary where
  passed : Nat
  failed : Nat
  total : Nat
deriving DecidableEq

def summary (t : TestTree) : Summary :=
  let cases := t.cases.tail
  ⟨(cases.filter (·.isPassed)).length, (cases.filter (·.status == .failed)).length, cases.length⟩

def walkFrom (t : TestTree) (depth i : Nat) : List (Nat × Nat) :=
  (depth, i) :: (t.children i).attach.flatMap fun ⟨j, _⟩ => t.walkFrom (depth + 1) j
termination_by t.size - i
decreasing_by
  have := lt_size_of_mem_children ‹_›
  omega

/-- Every case but the document. The document's children are at depth 0. -/
def walk (t : TestTree) : List (Nat × Nat) := (t.children 0).flatMap (t.walkFrom 0)

def outlineLine (t : TestTree) (depth i : Nat) : Text :=
  let (passed, total) := t.childCounts i
  List.replicate (2 * depth) ' ' ++ (t.getD i).name ++ " (".toList ++ Text.ofNat passed ++
    '/' :: Text.ofNat total ++ ") ".toList ++ (t.getD i).status.display ++ ['\n']

def outline (t : TestTree) : Text := t.walk.flatMap fun (depth, i) => t.outlineLine depth i

end TestTree

end Docspec
