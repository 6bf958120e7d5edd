import Docspec.Text.Basic

set_option autoImplicit false

namespace Docspec.Text

structure Position where
  line : Nat
  column : Nat
deriving DecidableEq

def Position.start : Position := ⟨1, 1⟩

def Position.advance (p : Position) (c : Char) : Position :=
  if c = '\n' then ⟨p.line + 1, 1⟩ else ⟨p.line, p.column + 1⟩

def Position.advanceBy (p : Position) (t : Text) : Position := t.foldl Position.advance p

/-- The position a byte offset away. An offset inside a character stands after it. -/
def Position.atOffset (p : Position) : Nat → Text → Position
  | 0, _ => p
  | _, [] => p
  | n + 1, c :: t => (p.advance c).atOffset (n + 1 - c.utf8Size) t

def locate (t : Text) (offset : Nat) : Position := Position.start.atOffset offset t

theorem Position.atOffset_append (p : Position) (a b : Text) :
    p.atOffset (byteLength a) (a ++ b) = p.advanceBy a := by
  induction a generalizing p with
  | nil => simp [Position.atOffset, Position.advanceBy]
  | cons c a ih =>
    have hpos : 0 < c.utf8Size := Char.utf8Size_pos c
    obtain ⟨n, hn⟩ : ∃ n, byteLength (c :: a) = n + 1 :=
      ⟨byteLength (c :: a) - 1, by simp only [byteLength_cons]; omega⟩
    have hrest : n + 1 - c.utf8Size = byteLength a := by
      simp only [byteLength_cons] at hn; omega
    rw [hn, List.cons_append, Position.atOffset, hrest, ih]
    rfl

theorem locate_append (a b : Text) : locate (a ++ b) (byteLength a) = Position.start.advanceBy a :=
  Position.atOffset_append _ a b

end Docspec.Text
