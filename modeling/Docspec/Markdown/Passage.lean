import Docspec.Markdown.Autolink
import Docspec.Markdown.Emphasis
import Docspec.Markdown.Entity
import Docspec.Markdown.Link

set_option autoImplicit false

namespace Docspec.Markdown

/-- The characters of a paragraph or heading. Line ends stand between its lines, and so do the
blanks a line begins with. -/
structure Passage where
  glyphs : List Glyph
  cut : Bool

namespace Passage

structure Bracket where
  offset : Nat
  image : Bool
  /-- No link may begin here if there is one inside already. -/
  disabled : Bool
  after : Text
  inside : List Piece

structure State where
  last : Option Char
  chunk : List Glyph
  outside : List Piece
  brackets : List Bracket

namespace State

def start : State := ⟨none, [], [], []⟩

def addPieces (ps : List Piece) (s : State) : State :=
  match s.brackets with
  | [] => { s with outside := ps.reverse ++ s.outside }
  | b :: bs => { s with brackets := { b with inside := ps.reverse ++ b.inside } :: bs }

def add (i : Inline) (s : State) : State := s.addPieces [.done i]

def gather (g : Glyph) (s : State) : State := { s with chunk := g :: s.chunk }

def flush (s : State) : State :=
  match s.chunk.reverse with
  | [] => s
  | g :: gs => { s with chunk := [] }.add (.text g.offset (charsOf (g :: gs)))

def giveUp (b : Bracket) (s : State) : State :=
  let mark : Text := if b.image then ['!', '['] else ['[']
  s.addPieces (.done (.text b.offset mark) :: b.inside.reverse)

def breakLine (offset : Nat) (s : State) : State :=
  let blanks := (s.chunk.takeWhile fun g => isLineBlank g.char).length
  if 2 ≤ blanks then
    { s with chunk := s.chunk.drop blanks }.flush.add (.hardBreak (offset - blanks))
  else s.flush.add (.softBreak offset)

end State

def lineEndLength (t : Text) : Nat :=
  match t with
  | '\r' :: '\n' :: rest => 2 + (rest.takeWhile isSpaceOrTab).length
  | _ :: rest => 1 + (rest.takeWhile isSpaceOrTab).length
  | [] => 0

def runLength (c : Char) (t : Text) : Nat := (t.takeWhile (· == c)).length

def closingRun? (n seen : Nat) : Text → Option Nat
  | [] => if seen = n then some 0 else none
  | c :: t =>
    if c == backtick then (closingRun? n (seen + 1) t).map (· + 1)
    else if seen = n then some 0
    else (closingRun? n 0 t).map (· + 1)

def codeText (t : Text) : Text :=
  let t := t.map fun c => if isLineEnd c then ' ' else c
  if t.all (· == ' ') then t
  else
    match t, t.getLast? with
    | ' ' :: rest, some ' ' => rest.dropLast
    | _, _ => t

def readCode (s : State) (offset count escaped : Nat) (rest : Text) : State × Nat :=
  let marks := count - escaped
  match (if marks = 0 then none else closingRun? marks 0 rest) with
  | some n =>
    let code := Inline.code (offset + escaped) (codeText (rest.take (n - marks)))
    let s := if escaped = 0 then s else s.add (.text offset [backtick])
    (s.add code, n)
  | none => (s.add (.text offset (List.replicate count backtick)), 0)

def linkLength? (labels : List Text) (b : Bracket) (rest : Text) : Option Nat :=
  match Link.inlineTarget? rest with
  | some after => some (rest.length - after.length)
  | none =>
    let ownLabel : Bool :=
      match Link.label? ('[' :: b.after) with
      | some (label, after) => after.length = rest.length && labels.contains label
      | none => false
    match rest with
    | '[' :: ']' :: _ => if ownLabel then some 2 else none
    | _ =>
      match Link.label? rest with
      | some (label, after) =>
        if labels.contains label then some (rest.length - after.length) else none
      | none => if ownLabel then some 0 else none

def disableLinks (bs : List Bracket) : List Bracket :=
  bs.map fun b => if b.image then b else { b with disabled := true }

def closeBracket (labels : List Text) (s : State) (offset : Nat) (rest : Text) : State × Nat :=
  match s.brackets with
  | [] => (s.add (.text offset [']']), 0)
  | b :: bs =>
    let s := { s with brackets := bs }
    match (if b.disabled then none else linkLength? labels b rest) with
    | some n =>
      let s := if b.image then s else { s with brackets := disableLinks bs }
      (s.add (.span b.offset (Emphasis.resolve b.inside.reverse)), n)
    | none => ((s.giveUp b).add (.text offset [']']), 0)

def readAngle (s : State) (offset : Nat) (rest : Text) : State × Nat :=
  match Autolink.read? rest with
  | some (address, after) =>
    (s.add (.span offset [.text (offset + 1) address]), rest.length - after.length)
  | none =>
    match Html.inline? rest with
    | some after => (s, rest.length - after.length)
    | none => (s.add (.text offset ['<']), 0)

def readDelimiters (s : State) (g : Glyph) (rest : List Glyph) : State × Nat :=
  let more := runLength g.char (charsOf rest)
  let next := (charsOf rest)[more]?
  let opens := DelimiterRun.canOpen g.char s.last next
  let closes := DelimiterRun.canClose g.char s.last next
  if opens || closes then
    (s.flush.addPieces [.delimiters ⟨g.offset, g.char, more + 1, opens, closes⟩], more)
  else ((rest.take more).foldl (fun s g => s.gather g) (s.gather g), more)

def readBackslash (s : State) (g : Glyph) (rest : List Glyph) : State × Nat :=
  match rest with
  | [] => (s.gather g, 0)
  | h :: _ =>
    if isLineEnd h.char then
      (s.flush.addPieces [.backslashBreak g.offset], lineEndLength (charsOf rest))
    else if h.char == backtick then
      let count := runLength backtick (charsOf rest)
      let (s, n) := readCode s.flush h.offset count 1 (charsOf (rest.drop count))
      (s, count + n)
    else if Text.isAsciiPunctuation h.char then (s.flush.gather h, 1)
    else (s.gather g, 0)

def step (labels : List Text) (s : State) (g : Glyph) (rest : List Glyph) : State × Nat :=
  let c := g.char
  if isLineEnd c then (s.breakLine g.offset, lineEndLength (charsOf (g :: rest)) - 1)
  else if c = '\\' then readBackslash s g rest
  else if c == backtick then
    let count := 1 + runLength backtick (charsOf rest)
    let (s, n) := readCode s.flush g.offset count 0 (charsOf (rest.drop (count - 1)))
    (s, count - 1 + n)
  else if c = '*' || c = '_' then readDelimiters s g rest
  else if c = '[' then
    let s := s.flush
    ({ s with brackets := ⟨g.offset, false, false, charsOf rest, []⟩ :: s.brackets }, 0)
  else if c = '!' && (rest.head?.map Glyph.char) = some '[' then
    let s := s.flush
    ({ s with brackets := ⟨g.offset, true, false, charsOf (rest.drop 1), []⟩ :: s.brackets }, 1)
  else if c = ']' then closeBracket labels s.flush g.offset (charsOf rest)
  else if c = '<' && (rest.head?.map Glyph.char) ≠ some '\\' then
    readAngle s.flush g.offset (charsOf rest)
  else if c = '&' then
    match Entity.read? (charsOf rest) with
    | some (image, after) => (s.flush.add (.text g.offset image), rest.length - after.length)
    | none => (s.gather g, 0)
  else (s.gather g, 0)

def lastOf (g : Glyph) (rest : List Glyph) (n : Nat) : Option Char :=
  let read := g :: rest.take n
  if read.any fun g => isLineEnd g.char then
    -- after blanks at the start of a line there is nothing before
    match read.reverse.dropWhile fun g => isSpaceOrTab g.char with
    | g' :: _ => if isLineEnd g'.char then none else read.getLast?.map Glyph.char
    | [] => none
  else read.getLast?.map Glyph.char

def readFrom (labels : List Text) (s : State) : List Glyph → State
  | [] => s
  | g :: rest =>
    let (s, n) := step labels s g rest
    readFrom labels { s with last := lastOf g rest n } (rest.drop n)
termination_by gs => gs.length
decreasing_by simp only [List.length_drop, List.length_cons]; omega

def finish (p : Passage) (s : State) : State :=
  match s.chunk, p.glyphs.getLast? with
  | [], some g => if p.cut then s.add (.text (g.offset + 1) []) else s
  | _, _ => s.flush

def giveUpAll : Nat → State → State
  | 0, s => s
  | n + 1, s =>
    match s.brackets with
    | [] => s
    | b :: bs => giveUpAll n ({ s with brackets := bs }.giveUp b)

def unwind (s : State) : List Piece := (giveUpAll s.brackets.length s).outside.reverse

def contents (labels : List Text) (p : Passage) : List Inline :=
  Emphasis.resolve (unwind (finish p (readFrom labels .start p.glyphs)))

end Passage

end Docspec.Markdown
