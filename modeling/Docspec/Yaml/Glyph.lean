import Docspec.Text.Basic

set_option autoImplicit false

namespace Docspec.Yaml

structure Glyph where
  char : Char
  line : Nat
  column : Nat
  index : Nat

def isBreak (c : Char) : Bool :=
  c == '\n' || c.toNat == 0x2028 || c.toNat == 0x2029

def isSpace (c : Char) : Bool := c == ' ' || c == '\t'

def isEnd (c : Char) : Bool := c.toNat == 0

def isSpaceOrBreak (c : Char) : Bool := isSpace c || isBreak c

def endsWord (c : Char) : Bool := isSpaceOrBreak c || isEnd c

def isNameLike (c : Char) : Bool := c.isAlphanum || c == '_' || c == '-'

def isPrintable (c : Char) : Bool :=
  let n := c.toNat
  n == 9 || n == 10 || n == 13 || (0x20 ≤ n && n ≤ 0x7E) || n == 0x85 ||
    (0xA0 ≤ n && n ≤ 0xD7FF) || (0xE000 ≤ n && n ≤ 0xFFFD) || 0x10000 ≤ n

def unifyBreaks : Text → Text
  | '\r' :: '\n' :: t => '\n' :: unifyBreaks t
  | c :: t => (if c == '\r' || c.toNat == 0x85 then '\n' else c) :: unifyBreaks t
  | [] => []

def placeFrom (line column index : Nat) : Text → List Glyph
  | [] => [⟨Char.ofNat 0, line, column, index⟩]
  | c :: t =>
    ⟨c, line, column, index⟩ ::
      if isBreak c then placeFrom (line + 1) 0 (index + 1) t
      else placeFrom line (column + 1) (index + 1) t

def glyphs? (t : Text) : Option (List Glyph) :=
  if t.all isPrintable then
    let content :=
      match t with
      | c :: r => if c.toNat == 0xFEFF then r else t
      | [] => []
    some (placeFrom 0 0 0 (unifyBreaks content))
  else none

def text (gs : List Glyph) : Text := gs.map Glyph.char

def chars (n : Nat) (gs : List Glyph) : Text := text (gs.take n)

def nextIs (p : Char → Bool) : List Glyph → Bool
  | g :: _ => p g.char
  | [] => p (Char.ofNat 0)

def isDocumentMark (mark : Char) : List Glyph → Bool
  | a :: b :: c :: r =>
    a.column == 0 && a.char == mark && b.char == mark && c.char == mark && nextIs endsWord r
  | _ => false

def isAnyDocumentMark (gs : List Glyph) : Bool := isDocumentMark '-' gs || isDocumentMark '.' gs

end Docspec.Yaml
