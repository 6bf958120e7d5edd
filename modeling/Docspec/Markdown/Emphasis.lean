import Docspec.Markdown.Inline
import Docspec.Text.Punctuation

set_option autoImplicit false

namespace Docspec.Markdown

namespace DelimiterRun

def canOpen (mark : Char) (before after : Option Char) : Bool :=
  match after with
  | none => false
  | some next =>
    !Text.isBlank next &&
      match before with
      | none => true
      | some last =>
        (mark == '*' && !Text.isPunctuation next) || Text.isBlank last || Text.isPunctuation last

def canClose (mark : Char) (before after : Option Char) : Bool :=
  match before with
  | none => false
  | some last =>
    !Text.isBlank last &&
      match after with
      | none => true
      | some next =>
        (mark == '*' && !Text.isPunctuation last) || Text.isBlank next || Text.isPunctuation next

def literal (r : DelimiterRun) : List Inline :=
  (List.range r.count).map fun i => .text (r.offset + i) [r.mark]

end DelimiterRun

namespace Emphasis

/-- A run that is open: what is left of it, its first length, and what stands after it, last
first. -/
structure Opener where
  run : DelimiterRun
  length : Nat
  inside : List Inline

structure State where
  outside : List Inline
  openers : List Opener

def State.start : State := ⟨[], []⟩

def State.add (s : State) (i : Inline) : State :=
  match s.openers with
  | [] => { s with outside := i :: s.outside }
  | o :: os => { s with openers := { o with inside := i :: o.inside } :: os }

def State.addAll (s : State) (is : List Inline) : State := is.foldl State.add s

def Opener.flatten (o : Opener) : List Inline := o.inside ++ o.run.literal.reverse

-- Whether two runs go together. If one of them can both open and close, their lengths must not
-- add up to a multiple of three, unless both are one.
def goTogether (o : Opener) (r : DelimiterRun) (length : Nat) : Bool :=
  o.run.mark == r.mark &&
    (!((o.run.opens && o.run.closes) || (r.opens && r.closes)) ||
      (length + o.length) % 3 != 0 || length % 3 == 0)

def nearest? (r : DelimiterRun) (length : Nat) :
    List Opener → Option (List Opener × Opener × List Opener)
  | [] => none
  | o :: os =>
    if goTogether o r length then some ([], o, os)
    else (nearest? r length os).map fun (inner, found, outer) => (o :: inner, found, outer)

def wrap (stop : Nat) : Nat → List Inline → List Inline
  | 0, is => is
  | 1, is => [.span (stop - 1) is]
  | n + 2, is => wrap (stop - 2) n [.span (stop - 2) is]

def close : Nat → State → DelimiterRun → Nat → State × DelimiterRun
  | 0, s, r, _ => (s, r)
  | rounds + 1, s, r, length =>
    if r.count = 0 then (s, r)
    else
      match nearest? r length s.openers with
      | none => (s, r)
      | some (inner, o, outer) =>
        let used := min r.count o.run.count
        let contents := (inner.flatMap Opener.flatten ++ o.inside).reverse
        let wrapped := wrap (o.run.offset + o.run.count) used contents
        let left : DelimiterRun := { o.run with count := o.run.count - used }
        let s : State :=
          if left.count = 0 then State.addAll { s with openers := outer } wrapped
          else { s with openers := ⟨left, o.length, wrapped.reverse⟩ :: outer }
        close rounds s { r with offset := r.offset + used, count := r.count - used } length

def step (s : State) : Piece → State
  | .done i => s.add i
  | .backslashBreak o => s.add (.hardBreak o)
  | .delimiters r =>
    let (s, left) : State × DelimiterRun := if r.closes then close r.count s r r.count else (s, r)
    if left.count = 0 then s
    else if r.opens then { s with openers := ⟨left, r.count, []⟩ :: s.openers }
    else s.addAll left.literal

def State.finish (s : State) : List Inline :=
  (s.openers.flatMap Opener.flatten ++ s.outside).reverse

def hasDelimiters (ps : List Piece) : Bool :=
  ps.any fun p => match p with
    | .delimiters _ => true
    | _ => false

def settleLast (ps : List Piece) : List Piece :=
  match ps.getLast? with
  | some (.backslashBreak o) =>
    if hasDelimiters ps then ps.dropLast ++ [.done (.text o ['\\'])] else ps
  | _ => ps

def resolve (ps : List Piece) : List Inline := ((settleLast ps).foldl step .start).finish

end Emphasis

end Docspec.Markdown
