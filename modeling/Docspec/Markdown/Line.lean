import Docspec.Text.Basic

set_option autoImplicit false

namespace Docspec.Markdown

structure Glyph where
  char : Char
  offset : Nat
deriving DecidableEq

def glyphsAt (offset : Nat) : Text → List Glyph
  | [] => []
  | c :: t => ⟨c, offset⟩ :: glyphsAt (offset + 1) t

def charsOf (gs : List Glyph) : Text := gs.map Glyph.char

structure Line where
  offset : Nat
  text : Text
  ending : Text

namespace Line

def split (offset : Nat) (read : Text) : Text → List Line
  | [] => if read.isEmpty then [] else [⟨offset, read.reverse, []⟩]
  | '\r' :: '\n' :: t =>
    ⟨offset, read.reverse, ['\r', '\n']⟩ :: split (offset + read.length + 2) [] t
  | c :: t =>
    if c = '\n' || c = '\r' then
      ⟨offset, read.reverse, [c]⟩ :: split (offset + read.length + 1) [] t
    else split offset (c :: read) t

def ofText (t : Text) : List Line := split 0 [] t

def placeOf (l : Line) (rest : Text) : Nat := l.offset + (l.text.length - rest.length)

def glyphs (l : Line) (rest : Text) : List Glyph := glyphsAt (l.placeOf rest) rest

def endingGlyphs (l : Line) : List Glyph := glyphsAt (l.offset + l.text.length) l.ending

end Line

def isLineBlank (c : Char) : Bool :=
  c == ' ' || c == '\t' || c.toNat == 11 || c.toNat == 12

def isBlankLine (t : Text) : Bool := t.all isLineBlank

def isSpaceOrTab (c : Char) : Bool := c == ' ' || c == '\t'

def isLineEnd (c : Char) : Bool := c == '\n' || c == '\r'

def isBlankOrLineEnd (c : Char) : Bool := isLineBlank c || isLineEnd c

def dropEnd (p : Char → Bool) (t : Text) : Text := (t.reverse.dropWhile p).reverse

end Docspec.Markdown
