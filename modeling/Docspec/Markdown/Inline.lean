import Docspec.Document.Event
import Docspec.Markdown.Line

set_option autoImplicit false

namespace Docspec.Markdown

inductive Inline
  | text (offset : Nat) (content : Text)
  | code (offset : Nat) (content : Text)
  | softBreak (offset : Nat)
  | hardBreak (offset : Nat)
  | span (offset : Nat) (contents : List Inline)

mutual

def Inline.events : Inline → List Event
  | .text o t => [⟨.text t, o⟩]
  | .code o t => [⟨.code t, o⟩]
  | .softBreak o => [⟨.softBreak, o⟩]
  | .hardBreak o => [⟨.hardBreak, o⟩]
  | .span o contents =>
    ⟨.start .span, o⟩ :: (Inline.eventsOfAll contents ++ [⟨.stop, o⟩])

def Inline.eventsOfAll : List Inline → List Event
  | [] => []
  | i :: is => i.events ++ Inline.eventsOfAll is

end

structure DelimiterRun where
  offset : Nat
  mark : Char
  count : Nat
  opens : Bool
  closes : Bool

inductive Piece
  | done (i : Inline)
  | delimiters (run : DelimiterRun)
  | backslashBreak (offset : Nat)

end Docspec.Markdown
