import Docspec.Yaml.Glyph

set_option autoImplicit false

namespace Docspec.Yaml

inductive Gap
  | none
  | blanks (t : Text)
  /-- The first line break, empty if it was escaped, and the ones after it. -/
  | lines (first more : Text)

def Gap.fold : Gap → Text
  | .none => []
  | .blanks t => t
  | .lines ['\n'] [] => [' ']
  | .lines ['\n'] more => more
  | .lines first more => first ++ more

def Gap.isLines : Gap → Bool
  | .lines .. => true
  | _ => false

def Gap.extend (c : Char) : Gap → Gap
  | .none => if isBreak c then .lines [c] [] else .blanks [c]
  | .blanks t => if isBreak c then .lines [c] [] else .blanks (t ++ [c])
  | .lines first more => if isBreak c then .lines first (more ++ [c]) else .lines first more

def singleQuoted (quoteSeen : Bool) (done : Text) (gap : Gap) :
    List Glyph → Option (Text × List Glyph)
  | [] => none
  | g :: gs =>
    if quoteSeen then
      if g.char = '\'' then singleQuoted false (done ++ ['\'']) .none gs
      else some (done, g :: gs)
    else if isSpaceOrBreak g.char then singleQuoted false done (gap.extend g.char) gs
    else if isEnd g.char || isAnyDocumentMark (g :: gs) then none
    else if g.char = '\'' then singleQuoted true (done ++ gap.fold) .none gs
    else singleQuoted false (done ++ gap.fold ++ [g.char]) .none gs

def escapeCode? (c : Char) : Option Nat :=
  match c with
  | '0' => some 0
  | 'a' => some 7
  | 'b' => some 8
  | 't' | '\t' => some 9
  | 'n' => some 10
  | 'v' => some 11
  | 'f' => some 12
  | 'r' => some 13
  | 'e' => some 27
  | ' ' => some 32
  | '"' => some 34
  | '/' => some 47
  | '\\' => some 92
  | 'N' => some 0x85
  | '_' => some 0xA0
  | 'L' => some 0x2028
  | 'P' => some 0x2029
  | _ => none

def escapeWidth? (c : Char) : Option Nat :=
  match c with
  | 'x' => some 2
  | 'u' => some 4
  | 'U' => some 8
  | _ => none

def hexValue? (c : Char) : Option Nat :=
  if Text.isDigit c then some (c.toNat - 48)
  else if 'a' ≤ c && c ≤ 'f' then some (c.toNat - 87)
  else if 'A' ≤ c && c ≤ 'F' then some (c.toNat - 55)
  else none

def isCharCode (n : Nat) : Bool := n < 0xD800 || (0xDFFF < n && n ≤ 0x10FFFF)

inductive Escape
  | outside
  | begun
  | code (left value : Nat)

def doubleQuoted (escape : Escape) (done : Text) (gap : Gap) :
    List Glyph → Option (Text × List Glyph)
  | [] => none
  | g :: gs =>
    match escape with
    | .begun =>
      if isBreak g.char then doubleQuoted .outside done (.lines [] []) gs
      else
        match escapeCode? g.char, escapeWidth? g.char with
        | some n, _ => doubleQuoted .outside (done ++ [Char.ofNat n]) .none gs
        | none, some width => doubleQuoted (.code width 0) done .none gs
        | none, none => none
    | .code left value =>
      match hexValue? g.char with
      | none => none
      | some d =>
        let value := 16 * value + d
        if left ≤ 1 then
          if isCharCode value then
            doubleQuoted .outside (done ++ [Char.ofNat value]) .none gs
          else none
        else doubleQuoted (.code (left - 1) value) done .none gs
    | .outside =>
      if isSpaceOrBreak g.char then doubleQuoted .outside done (gap.extend g.char) gs
      else if isEnd g.char || isAnyDocumentMark (g :: gs) then none
      else if g.char = '"' then some (done ++ gap.fold, gs)
      else if g.char = '\\' then doubleQuoted .begun (done ++ gap.fold) .none gs
      else doubleQuoted .outside (done ++ gap.fold ++ [g.char]) .none gs

def isFlowMark (c : Char) : Bool :=
  c == ',' || c == '[' || c == ']' || c == '\x7b' || c == '\x7d'

def plain (inFlow : Bool) (indent : Int) (done : Text) (gap : Gap) :
    List Glyph → Option (Text × List Glyph × Bool)
  | [] => some (done, [], gap.isLines)
  | g :: gs =>
    if isSpaceOrBreak g.char then
      if gap.isLines && (g.column : Int) < indent && g.char = '\t' then none
      else plain inFlow indent done (gap.extend g.char) gs
    else
      let afterGap := match gap with | .none => false | _ => true
      let endsHere :=
        isEnd g.char || (afterGap && !inFlow && (g.column : Int) < indent) ||
          isAnyDocumentMark (g :: gs) || (afterGap && g.char = '#') ||
          (g.char = ':' && nextIs endsWord gs) || (inFlow && isFlowMark g.char)
      if !endsHere && inFlow && g.char = ':' && nextIs (fun c => isFlowMark c || c = '?') gs then
        none
      else if endsHere then some (done, g :: gs, gap.isLines)
      else plain inFlow indent (done ++ gap.fold ++ [g.char]) .none gs

inductive Chomping
  | clip
  | strip
  | keep

structure BlockHeader where
  chomping : Chomping
  increment : Option Nat

def chompingOf? (c : Char) : Option Chomping :=
  if c = '+' then some .keep else if c = '-' then some .strip else none

def incrementOf? (c : Char) : Option Nat :=
  if '1' ≤ c && c ≤ '9' then some (c.toNat - 48) else none

def blockHeader : List Glyph → BlockHeader × List Glyph
  | a :: b :: r =>
    match chompingOf? a.char, incrementOf? b.char with
    | some ch, some n => (⟨ch, some n⟩, r)
    | some ch, none => (⟨ch, none⟩, b :: r)
    | none, _ =>
      match incrementOf? a.char, chompingOf? b.char with
      | some n, some ch => (⟨ch, some n⟩, r)
      | some n, none => (⟨.clip, some n⟩, b :: r)
      | none, _ => (⟨.clip, none⟩, a :: b :: r)
  | r => (⟨.clip, none⟩, r)

def restOfLine? (gs : List Glyph) : Option (List Glyph) :=
  let afterBlanks := gs.dropWhile fun g => isSpace g.char
  let afterComment :=
    if nextIs (· = '#') afterBlanks then
      afterBlanks.dropWhile fun g => !(isBreak g.char || isEnd g.char)
    else afterBlanks
  match afterComment with
  | g :: r => if isBreak g.char then some r else if isEnd g.char then some (g :: r) else none
  | [] => some []

-- Skips blank lines and the indentation of the next line, collecting the line breaks. An unknown
-- indentation is 0; the second number is the deepest column reached. A tab may not stand in the
-- indentation.
def leadingBreaks (indent deepest : Nat) (breaks : Text) :
    List Glyph → Option (Text × Nat × List Glyph)
  | [] => some (breaks, deepest, [])
  | g :: gs =>
    if (indent == 0 || g.column < indent) && g.char == ' ' then
      leadingBreaks indent deepest breaks gs
    else
      let deepest := max deepest g.column
      if (indent == 0 || g.column < indent) && g.char == '\t' then none
      else if isBreak g.char then leadingBreaks indent deepest (breaks ++ [g.char]) gs
      else some (breaks, deepest, g :: gs)

structure BlockLines where
  done : Text
  leadingBreak : Text
  trailingBreaks : Text
  /-- The last line began with a blank, so the break after it is not folded. -/
  leadingBlank : Bool

def BlockLines.startLine (folded : Bool) (c : Char) (b : BlockLines) : BlockLines :=
  let joint :=
    if folded && b.leadingBreak == ['\n'] && !b.leadingBlank && !isSpace c then
      if b.trailingBreaks.isEmpty then [' '] else []
    else b.leadingBreak
  ⟨b.done ++ joint ++ b.trailingBreaks, [], [], isSpace c⟩

def BlockLines.finish (chomping : Chomping) (b : BlockLines) : Text :=
  match chomping with
  | .strip => b.done
  | .clip => b.done ++ b.leadingBreak
  | .keep => b.done ++ b.leadingBreak ++ b.trailingBreaks

def blockLines (folded : Bool) (indent : Nat) (inLine : Bool) (b : BlockLines) :
    List Glyph → Option (BlockLines × List Glyph)
  | [] => some (b, [])
  | g :: gs =>
    if inLine then
      if isEnd g.char then some ({ b with leadingBreak := [] }, g :: gs)
      else if isBreak g.char then
        blockLines folded indent false { b with leadingBreak := [g.char] } gs
      else blockLines folded indent true { b with done := b.done ++ [g.char] } gs
    else if g.column < indent && g.char == ' ' then blockLines folded indent false b gs
    else if g.column < indent && g.char == '\t' then none
    else if isBreak g.char then
      blockLines folded indent false { b with trailingBreaks := b.trailingBreaks ++ [g.char] } gs
    else if g.column == indent && !isEnd g.char then
      let b := b.startLine folded g.char
      blockLines folded indent true { b with done := b.done ++ [g.char] } gs
    else some (b, g :: gs)

def blockScalar (folded : Bool) (outer : Int) (gs : List Glyph) : Option (Text × List Glyph) := do
  let (header, rest) := blockHeader gs
  let rest ← restOfLine? rest
  let given : Nat :=
    match header.increment with
    | some n => if 0 ≤ outer then outer.toNat + n else n
    | none => 0
  let (breaks, deepest, rest) ← leadingBreaks given 0 [] rest
  let indent := if given = 0 then max deepest (max (outer + 1).toNat 1) else given
  let (lines, rest) ← blockLines folded indent false ⟨[], [], breaks, false⟩ rest
  return (lines.finish header.chomping, rest)

end Docspec.Yaml
