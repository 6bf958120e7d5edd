import Docspec.Markdown.Line
import Docspec.Text.Case
import Docspec.Text.Punctuation

set_option autoImplicit false

namespace Docspec.Markdown.Link

def deepestNesting : Nat := 32

/-- Skips blanks with at most one line end among them, and counts the line ends. -/
def skipGap (t : Text) : Nat × Text :=
  match t.dropWhile isLineBlank with
  | '\r' :: '\n' :: rest => (1, rest.dropWhile isLineBlank)
  | c :: rest => if isLineEnd c then (1, rest.dropWhile isLineBlank) else (0, c :: rest)
  | [] => (0, [])

def labelEnd? (read : Text) : Text → Option (Text × Text)
  | [] => none
  | '\\' :: c :: t => labelEnd? (c :: '\\' :: read) t
  | c :: t =>
    if c = '[' then none
    else if c = ']' then some (read.reverse, t)
    else labelEnd? (c :: read) t

def collapse (t : Text) : Text :=
  match t with
  | [] => []
  | c :: t =>
    if isBlankOrLineEnd c then
      match collapse t with
      | ' ' :: rest => ' ' :: rest
      | rest => ' ' :: rest
    else c :: collapse t

def labelKey (t : Text) : Text :=
  Text.lowerCase (Text.upperCase (Text.lowerCase
    (dropEnd (· == ' ') ((collapse t).dropWhile (· == ' ')))))

def label? (t : Text) : Option (Text × Text) :=
  match t with
  | '[' :: rest =>
    match labelEnd? [] rest with
    | some (inside, after) =>
      if inside.all isBlankOrLineEnd then none else some (labelKey inside, after)
    | none => none
  | _ => none

def pointedEnd? : Text → Option Text
  | [] => none
  | '\\' :: c :: t =>
    if Text.isAsciiPunctuation c then pointedEnd? t
    else if c == '<' || isLineEnd c then none
    else pointedEnd? t
  | c :: t =>
    if c = '>' then some t
    else if c == '<' || isLineEnd c then none
    else pointedEnd? t

def plainEnd? (depth : Nat) : Text → Option Text
  | [] => if depth = 0 then some [] else none
  | '\\' :: c :: t =>
    if Text.isAsciiPunctuation c then plainEnd? depth t
    else if c.toNat ≤ 0x20 then if depth = 0 then some (c :: t) else none
    else plainEnd? depth t
  | c :: t =>
    if c.toNat ≤ 0x20 then if depth = 0 then some (c :: t) else none
    else if c = '(' then if deepestNesting < depth then none else plainEnd? (depth + 1) t
    else if c = ')' then
      match depth with
      | 0 => some (c :: t)
      | depth + 1 => plainEnd? depth t
    else plainEnd? depth t

def destination? (t : Text) : Option Text :=
  match t with
  | '<' :: rest => pointedEnd? rest
  | _ => plainEnd? 0 t

def titleEnd? (closing : Char) : Text → Option Text
  | [] => none
  | '\\' :: _ :: t => titleEnd? closing t
  | c :: t =>
    if c = closing then some t
    else if c = '(' && closing = ')' then none
    else titleEnd? closing t

def title? (t : Text) : Option Text :=
  match t with
  | c :: rest =>
    if c == '"' || c == Char.ofNat 39 then titleEnd? c rest
    else if c == '(' then titleEnd? ')' rest
    else none
  | [] => none

def inlineTarget? (t : Text) : Option Text :=
  match t with
  | '(' :: rest =>
    match destination? (skipGap rest).2 with
    | none => none
    | some after =>
      let inner := (skipGap after).2
      let inner := match title? inner with
        | some after => (skipGap after).2
        | none => inner
      match inner with
      | ')' :: rest => some rest
      | _ => none
  | _ => none

def lineEnd? (t : Text) : Option Text :=
  match t.dropWhile isLineBlank with
  | [] => some []
  | '\r' :: '\n' :: rest => some rest
  | c :: rest => if isLineEnd c then some rest else none

-- The definition of a label at the start of a paragraph: the label and the lines after the
-- definition. The title is part of it only if nothing else stands on its last line.
def definition? (t : Text) : Option (Text × Text) :=
  match label? t with
  | some (label, ':' :: rest) =>
    let before := (skipGap rest).2
    match destination? before with
    | none => none
    | some after =>
      if after.length = before.length then none
      else
        let (ends, inner) := skipGap after
        let bare := if ends = 0 then none else (lineEnd? after).map fun rest => (label, rest)
        match (if inner.length = after.length then none else title? inner) with
        | some closed =>
          match lineEnd? closed with
          | some rest => some (label, rest)
          | none => bare
        | none => if inner.isEmpty then some (label, []) else bare
  | _ => none

end Docspec.Markdown.Link
