import Docspec.Markdown.Line

set_option autoImplicit false

namespace Docspec.Markdown

structure Cursor where
  rest : Text
  sinceTab : Nat
  pending : Nat

namespace Cursor

def ofText (t : Text) : Cursor := ⟨t, 0, 0⟩

/-- Walks over that many columns of spaces and tabs. The columns that were not found come first. -/
def walk (wanted sinceTab : Nat) : Text → Nat × Cursor
  | [] => (wanted, ⟨[], sinceTab, 0⟩)
  | c :: t =>
    if wanted = 0 then (0, ⟨c :: t, sinceTab, 0⟩)
    else if c = ' ' then walk (wanted - 1) (sinceTab + 1) t
    else if c = '\t' then
      let width := 4 - sinceTab % 4
      if width ≤ wanted then walk (wanted - width) 0 t else (0, ⟨t, 0, width - wanted⟩)
    else (wanted, ⟨c :: t, sinceTab, 0⟩)

def skip (n : Nat) (c : Cursor) : Nat × Cursor :=
  if n ≤ c.pending then (n, { c with pending := c.pending - n })
  else
    let (missing, after) := walk (n - c.pending) c.sinceTab c.rest
    (n - missing, after)

def atEnd (c : Cursor) : Bool := c.rest.isEmpty

def skipBlanks (c : Cursor) : Text := c.rest.dropWhile isSpaceOrTab

def pass (n : Nat) (c : Cursor) : Cursor :=
  { c with rest := c.rest.drop n, sinceTab := c.sinceTab + n }

def quoteMark? (c : Cursor) : Option Cursor :=
  let inner := (c.skip 3).2
  match inner.rest with
  | '>' :: _ => some ((inner.pass 1).skip 1).2
  | _ => none

end Cursor

inductive Container
  | quote
  | list (mark : Char)
  | item (indent : Nat)
deriving DecidableEq

def Container.continue? : Container → Cursor → Option Cursor
  | .quote, c => c.quoteMark?
  | .list _, c => some c
  | .item indent, c =>
    let (found, inner) := c.skip indent
    if found = indent || inner.atEnd then some inner else none

def continued : List Container → Cursor → Nat × Cursor
  | [], c => (0, c)
  | k :: ks, c =>
    match k.continue? c with
    | none => (0, c)
    | some inner =>
      let (n, rest) := continued ks inner
      (n + 1, rest)

def continuedAll? (ks : List Container) (c : Cursor) : Option Cursor :=
  let (n, rest) := continued ks c
  if n = ks.length then some rest else none

end Docspec.Markdown
