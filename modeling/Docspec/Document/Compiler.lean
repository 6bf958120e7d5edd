import Docspec.Command.Catalog
import Docspec.Document.Token
import Docspec.TestTree

set_option autoImplicit false

namespace Docspec

structure CompileError where
  command : Text
  source : Text
  line : Nat
deriving DecidableEq

def CompileError.message (e : CompileError) : Text :=
  Catalog.unknownMessage e.command ++ ", in `".toList ++ e.source ++ ":".toList ++
    Text.ofNat e.line ++ "`".toList

namespace Compiler

def paragraphs (ts : List Token) : Text :=
  Text.joinWith [' '] ((ts.map Token.flatText).filter fun t => !Text.isAllBlank t)

/-- The case that a heading of a level goes under: the nearest of a case and those above it that is
less deep, or else the document. -/
def placement (t : TestTree) (level : Nat) : Nat → Nat → Nat
  | 0, i => i
  | fuel + 1, i =>
    if (t.getD i).level < level then i
    else
      match (t.getD i).parent with
      | some p => placement t level fuel p
      | none => i

def fences (ts : List Token) : List Argument :=
  (ts.takeWhile fun t => !(t.isQuoteOpen || t.isHeadingOpen)).filterMap fun t =>
    match t.kind with
    | .fence info =>
      let (contentType, extra) := (Text.splitOnce (· = ' ') info).getD (info, [])
      some (.ofBlock t.content contentType (Text.trim extra))
    | _ => none

def command (catalog : Catalog) (source : Text) (line : Nat) (quoted after : List Token) :
    Except CompileError Command :=
  let text := Text.trim (paragraphs quoted)
  let (id, rest) := (Text.splitOnce (· = ' ') text).getD (text, [])
  match catalog.resolve? id with
  | none => .error ⟨id, source, line⟩
  | some spec => .ok (spec.instantiate (spec.split rest ++ fences after))

theorem length_dropWhile_le {α : Type} (p : α → Bool) (l : List α) :
    (l.dropWhile p).length ≤ l.length := by
  induction l with
  | nil => simp
  | cons a l ih =>
    simp only [List.dropWhile]
    split
    · simp only [List.length_cons]
      omega
    · simp

/-- Compiles the rest of a document into a tree whose last heading is the case `current`. -/
def compileFrom (catalog : Catalog) (source : Text) (t : TestTree) (current : Nat) :
    List Token → Except CompileError TestTree
  | [] => .ok t
  | tok :: rest =>
    match tok.kind with
    | .headingOpen level =>
      let name := Text.trim (paragraphs (rest.takeWhile fun k => !k.isHeadingClose))
      let parent := placement t level t.size current
      compileFrom catalog source (t.addChild parent name level) t.size
        (rest.dropWhile fun k => !k.isHeadingClose)
    | .quoteOpen =>
      let after := (rest.dropWhile fun k => !k.isQuoteClose).tail
      match command catalog source tok.line (rest.takeWhile fun k => !k.isQuoteClose) after with
      | .error e => .error e
      | .ok c => compileFrom catalog source (t.addCommand current c) current after
    | _ => compileFrom catalog source t current rest
termination_by ts => ts.length
decreasing_by
  · have := length_dropWhile_le (fun k : Token => !k.isHeadingClose) rest
    simp only [List.length_cons]; omega
  · have := length_dropWhile_le (fun k : Token => !k.isQuoteClose) rest
    simp only [List.length_cons, List.length_tail]; omega
  · simp

def unnamed : Text := "<input>"

def compile (catalog : Catalog) (source : Text) (ts : List Token) : Except CompileError TestTree :=
  compileFrom catalog source .new 0 ts

end Compiler

end Docspec
