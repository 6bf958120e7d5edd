import Docspec.Text.Basic

set_option autoImplicit false

namespace Docspec

inductive TokenKind
  | headingOpen (level : Nat)
  | headingClose (level : Nat)
  | quoteOpen
  | quoteClose
  | fence (info : Text)
  /-- A run of texts that belong together. -/
  | inline
  | text
  | other
deriving DecidableEq

inductive Token
  | mk (kind : TokenKind) (content : Text) (children : List Token) (line : Nat)

namespace Token

def kind : Token → TokenKind
  | mk k _ _ _ => k

def content : Token → Text
  | mk _ c _ _ => c

def children : Token → List Token
  | mk _ _ cs _ => cs

def line : Token → Nat
  | mk _ _ _ n => n

def bare (kind : TokenKind) (line : Nat) : Token := mk kind [] [] line

instance : Inhabited Token := ⟨bare .other 1⟩

def ofText (content : Text) (line : Nat) : Token := mk .text content [] line

def isHeadingOpen (t : Token) : Bool :=
  match t.kind with
  | .headingOpen _ => true
  | _ => false

def isHeadingClose (t : Token) : Bool :=
  match t.kind with
  | .headingClose _ => true
  | _ => false

def isQuoteOpen (t : Token) : Bool := t.kind == .quoteOpen

def isQuoteClose (t : Token) : Bool := t.kind == .quoteClose

mutual

def flatText : Token → Text
  | mk _ content [] _ => content
  | mk _ _ (c :: cs) _ => flatText c ++ concat cs

def concat : List Token → Text
  | [] => []
  | t :: ts => flatText t ++ concat ts

end

theorem concat_append (a b : List Token) : concat (a ++ b) = concat a ++ concat b := by
  induction a with
  | nil => simp [concat]
  | cons t a ih => simp [concat, ih]

end Token

end Docspec
