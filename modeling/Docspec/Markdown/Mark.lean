import Docspec.Markdown.Cursor

set_option autoImplicit false

namespace Docspec.Markdown

def backtick : Char := Char.ofNat 96

def isThematicBreak (t : Text) : Bool :=
  match t with
  | [] => false
  | c :: _ =>
    (c == '*' || c == '-' || c == '_') && t.all (fun x => x == c || isSpaceOrTab x) &&
      3 ≤ t.count c

def heading? (t : Text) : Option (Nat × Text) :=
  let level := (t.takeWhile (· == '#')).length
  let rest := t.drop level
  if 1 ≤ level && level ≤ 6 && (rest.head?.all isLineBlank) then
    some (level, rest.dropWhile isLineBlank)
  else none

def headingText (t : Text) : Text :=
  let body := dropEnd (· == ' ') t
  let open' := dropEnd (· == '#') body
  if open'.isEmpty then []
  else
    let bare := dropEnd (· == ' ') open'
    if bare.length < open'.length then bare else body

def underline? (t : Text) : Option Nat :=
  let level? : Option (Char × Nat) :=
    match t with
    | '=' :: _ => some ('=', 1)
    | '-' :: _ => some ('-', 2)
    | _ => none
  match level? with
  | some (c, level) => if isBlankLine (t.dropWhile (· == c)) then some level else none
  | none => none

structure Fence where
  mark : Char
  length : Nat
  info : Text

def fence? (t : Text) : Option Fence :=
  match t with
  | [] => none
  | c :: _ =>
    if c == backtick || c == '~' then
      let n := (t.takeWhile (· == c)).length
      let rest := t.drop n
      if 3 ≤ n && !(c == backtick && rest.contains backtick) then
        some ⟨c, n, dropEnd isBlankOrLineEnd (rest.dropWhile isLineBlank)⟩
      else none
    else none

def Fence.isClosedBy (f : Fence) (t : Text) : Bool :=
  f.length ≤ (t.takeWhile (· == f.mark)).length &&
    (t.dropWhile (· == f.mark)).all (· == ' ')

structure Bullet where
  mark : Char
  number : Option Nat
  length : Nat

def bullet? (t : Text) : Option Bullet :=
  match t with
  | [] => none
  | c :: _ =>
    if c == '-' || c == '+' || c == '*' then some ⟨c, none, 1⟩
    else
      let digits := t.takeWhile Text.isDigit
      match Text.digits? digits, t.drop digits.length with
      | some n, d :: _ =>
        if digits.length ≤ 9 && (d == '.' || d == ')') then some ⟨d, some n, digits.length + 1⟩
        else none
      | _, _ => none

/-- The beginning of a list item: its bullet, the indentation of its contents and the rest of the
line. The contents stand one to four columns after the bullet; more belong to the contents. -/
structure ItemStart where
  mark : Char
  indent : Nat
  rest : Cursor

def itemStart? (indent : Nat) (c : Cursor) : Option ItemStart :=
  match bullet? c.rest with
  | none => none
  | some b =>
    if b.number.isNone && isThematicBreak c.rest then none
    else
      let (found, inner) := (c.pass b.length).skip 1
      if found = 1 || inner.atEnd then
        let width := indent + b.length + 1
        if isBlankLine inner.rest then some ⟨b.mark, width, inner⟩
        else
          let (more, deeper) := inner.skip 4
          if more < 4 then some ⟨b.mark, width + more, deeper⟩ else some ⟨b.mark, width, inner⟩
      else none

end Docspec.Markdown
