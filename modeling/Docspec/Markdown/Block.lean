import Docspec.Markdown.Passage

set_option autoImplicit false

namespace Docspec.Markdown

inductive Block
  | paragraph (offset : Nat) (passage : Passage)
  | heading (offset level : Nat) (passage : Passage)
  | fence (offset : Nat) (info : Text) (lines : List (List Glyph))
  | indentedCode (offset : Nat) (lines : List (List Glyph))
  | html (offset : Nat)
  | quote (offset : Nat) (blocks : List Block)
  /-- A list. It is tight if no blank line stands between its items or their blocks. -/
  | list (offset : Nat) (tight : Bool) (items : List Block)
  | item (offset : Nat) (blocks : List Block)

namespace Block

def enclose (c : Construct) (offset : Nat) (inside : List Event) : List Event :=
  ⟨.start c, offset⟩ :: (inside ++ [⟨.stop, offset⟩])

def lineEvents (ls : List (List Glyph)) : List Event :=
  ls.flatMap fun l => match l with
    | [] => []
    | g :: _ => [⟨.text (charsOf l), g.offset⟩]

mutual

/-- The events of a block. In an item of a tight list, paragraphs are not told apart. -/
def events (labels : List Text) (tight : Bool) : Block → List Event
  | .paragraph o p =>
    let inside := Inline.eventsOfAll (p.contents labels)
    if tight then inside else enclose .other o inside
  | .heading o level p => enclose (.heading level) o (Inline.eventsOfAll (p.contents labels))
  | .fence o info ls => enclose (.fence info) o (lineEvents ls)
  | .indentedCode o ls => enclose .indentedCode o (lineEvents ls)
  | .html o => enclose .other o []
  | .quote o bs => enclose .quote o (eventsOfAll labels false bs)
  | .list o tight items => enclose .other o (eventsOfAll labels tight items)
  | .item o bs => enclose .other o (eventsOfAll labels tight bs)

def eventsOfAll (labels : List Text) (tight : Bool) : List Block → List Event
  | [] => []
  | b :: bs => b.events labels tight ++ eventsOfAll labels tight bs

end

end Block

end Docspec.Markdown
