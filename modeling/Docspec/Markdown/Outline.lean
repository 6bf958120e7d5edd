import Docspec.Markdown.Block
import Docspec.Markdown.Html
import Docspec.Markdown.Mark

set_option autoImplicit false

namespace Docspec.Markdown

/-- A container that is open, with what it holds so far, last first. -/
structure OpenContainer where
  container : Container
  offset : Nat
  tight : Bool
  blocks : List Block

structure Outline where
  blocks : List Block
  spine : List OpenContainer
  afterBlank : Bool
  /-- Whether the innermost item has only a blank line yet. -/
  bareItem : Bool
  labels : List Text

namespace Outline

def start : Outline := ⟨[], [], false, false, []⟩

def containers (o : Outline) : List Container := (o.spine.map OpenContainer.container).reverse

def add (b : Block) (o : Outline) : Outline :=
  match o.spine with
  | [] => { o with blocks := b :: o.blocks }
  | c :: cs => { o with spine := { c with blocks := b :: c.blocks } :: cs }

def OpenContainer.block (c : OpenContainer) : Block :=
  match c.container with
  | .quote => .quote c.offset c.blocks.reverse
  | .list _ => .list c.offset c.tight c.blocks.reverse
  | .item _ => .item c.offset c.blocks.reverse

def isTightList (c : OpenContainer) : Bool :=
  match c.container with
  | .list _ => c.tight
  | _ => false

def close (o : Outline) : Outline :=
  match o.spine with
  | [] => o
  | c :: cs =>
    let o := { o with spine := cs }.add (OpenContainer.block c)
    if isTightList c then { o with bareItem := false } else o

def closeTo (n : Nat) (o : Outline) : Outline :=
  (List.range (o.spine.length - n)).foldl (fun o _ => o.close) o

def push (c : Container) (offset : Nat) (o : Outline) : Outline :=
  { o with spine := ⟨c, offset, true, []⟩ :: o.spine }

def innermost? (o : Outline) : Option Container := o.spine.head?.map OpenContainer.container

def finishBareItem (o : Outline) : Outline :=
  let o :=
    match o.innermost? with
    | some (.item _) => if o.bareItem && o.afterBlank then o.close else o
    | _ => o
  { o with bareItem := false }

def loosen (c : OpenContainer) : OpenContainer :=
  match c.container with
  | .list _ => { c with tight := false }
  | _ => c

def finishList (o : Outline) : Outline :=
  let o := o.finishBareItem
  let o :=
    match o.innermost? with
    | some (.list _) => o.close
    | _ => o
  if o.afterBlank then
    match o.spine with
    | c :: l :: cs => { o with spine := c :: loosen l :: cs, afterBlank := false }
    | _ => { o with afterBlank := false }
  else o

def continueList (mark : Char) (offset : Nat) (o : Outline) : Outline :=
  let o := o.finishBareItem
  match o.spine with
  | l :: cs =>
    if l.container = .list mark then
      if o.afterBlank then { o with spine := loosen l :: cs, afterBlank := false } else o
    else
      { o.finishList.push (.list mark) offset with afterBlank := false }
  | [] => { o.push (.list mark) offset with afterBlank := false }

def addBlank (o : Outline) : Outline :=
  match o.spine with
  | [] => { o with afterBlank := true }
  | c :: cs =>
    match c.container with
    | .quote => o
    | .item _ =>
      if o.bareItem then
        { o with spine := { c with container := .item 0 } :: cs, afterBlank := true }
      else { o with afterBlank := true }
    | .list _ => { o with afterBlank := true }

def openContainers (l : Line) : Nat → Outline → Cursor → Outline × Option Cursor
  | 0, o, c => (o, some c)
  | n + 1, o, c =>
    let (indent, inner) := c.skip 4
    if 4 ≤ indent then (o, some c)
    else
      match itemStart? indent inner with
      | some i =>
        let offset := l.placeOf inner.rest
        let o := (o.continueList i.mark offset).push (.item i.indent) offset
        if isBlankLine i.rest.rest then ({ o with bareItem := true }, none)
        else openContainers l n o i.rest
      | none =>
        match inner.quoteMark? with
        | some rest => openContainers l n (o.finishList.push .quote (l.placeOf inner.rest)) rest
        | none => (o, some c)

-- Whether the rest of a line ends the paragraph before it. A list interrupts a paragraph that it
-- stands beside only if it begins with a bullet or the number one, and not with blank lines.
def interrupts (inContainers : Bool) (t : Text) (more : List Line) : Bool :=
  t.isEmpty || isThematicBreak t || (heading? t).isSome || (fence? t).isSome ||
    t.head? == some '>' ||
    (match bullet? t with
      | some b =>
        let rest := t.drop b.length
        (rest.isEmpty || rest.head?.any isSpaceOrTab) &&
          (!inContainers ||
            ((b.number.isNone || b.number == some 1) &&
              !(isBlankLine rest && more.head?.all fun l => isBlankLine l.text)))
      | none => false) ||
    (match t with
      | '<' :: inner => (Html.interrupting? inner).isSome
      | _ => false)

def paragraphLines (ks : List Container) : List Line → List (Line × Text) × Option Nat
  | [] => ([], none)
  | l :: more =>
    let (n, c) := continued ks (.ofText l.text)
    let inContainers := n == ks.length
    let (indent, inner) := c.skip 4
    let goesOn : Bool :=
      if indent < 4 then !interrupts inContainers inner.rest more else !inner.skipBlanks.isEmpty
    match (if indent < 4 && inContainers then underline? inner.rest else none) with
    | some level => ([], some level)
    | none =>
      if goesOn then
        let (ls, level) := paragraphLines ks more
        ((l, c.rest) :: ls, level)
      else ([], none)

def trimLast (l : Line) (t : Text) : Text :=
  let bare := dropEnd isLineBlank t
  if l.ending.isEmpty || bare.length + 2 ≤ t.length then bare else t

def passage (heading : Bool) (ls : List (Line × Text)) : Passage :=
  match ls.getLast? with
  | none => ⟨[], false⟩
  | some (l, t) =>
    let kept := trimLast l t
    let bare := if heading then dropEnd isLineBlank t else kept
    ⟨ls.dropLast.flatMap (fun (l, t) => l.glyphs t ++ l.endingGlyphs) ++
      (l.glyphs t).take bare.length, bare.length < kept.length⟩

def headingPassage (l : Line) (t : Text) : Passage :=
  let bare := headingText t
  ⟨(l.glyphs t).take bare.length, !bare.isEmpty && bare.length < (trimLast l t).length⟩

def lineCount (chars : Nat) : List (Line × Text) → Nat
  | [] => 0
  | (l, t) :: ls =>
    if chars = 0 then 0 else 1 + lineCount (chars - (t.length + l.ending.length)) ls

def codeLines (ks : List Container) : List Line → List (Line × Cursor)
  | [] => []
  | l :: more =>
    match continuedAll? ks (.ofText l.text) with
    | none => []
    | some c =>
      let (indent, inner) := c.skip 4
      if indent = 4 || inner.atEnd then (l, inner) :: codeLines ks more else []

def codeGlyphs (l : Line) (c : Cursor) : List Glyph :=
  (List.replicate c.pending ⟨' ', l.placeOf c.rest⟩) ++ l.glyphs c.rest ++
    (if l.ending.length = 2 then l.endingGlyphs.drop 1 else l.endingGlyphs)

def fenceLines (ks : List Container) (f : Fence) (indent : Nat) :
    List Line → List (List Glyph) × Nat
  | [] => ([], 0)
  | l :: more =>
    match continuedAll? ks (.ofText l.text) with
    | none => ([], 0)
    | some c =>
      let inner := (c.skip indent).2
      let (found, mark) := inner.skip (4 - indent)
      if found < 4 - indent && f.isClosedBy mark.rest then ([], 1)
      else
        let (ls, n) := fenceLines ks f indent more
        (codeGlyphs l inner :: ls, n + 1)

def htmlLines (ks : List Container) (e : Html.Extent) (t : Text) : List Line → Nat
  | [] => 0
  | l :: more =>
    match continuedAll? ks (.ofText l.text) with
    | none => 0
    | some c =>
      let ends : Bool :=
        match e with
        | .through mark => Text.containsText mark t
        | .toBlank => isBlankLine c.rest
      if ends then 0 else 1 + htmlLines ks e c.rest more

def addParagraph (o : Outline) (l : Line) (t : Text) (more : List Line) : Outline × Nat :=
  let (ls, level) := paragraphLines o.containers more
  let all := (l, t) :: ls
  let source := all.flatMap fun (l, t) => t ++ l.ending
  match Link.definition? source with
  | some (label, rest) =>
    ({ o with labels := label :: o.labels }, lineCount (source.length - rest.length) all - 1)
  | none =>
    let place := l.placeOf t
    match level with
    | some level => (o.add (.heading place level (passage true all)), ls.length + 1)
    | none => (o.add (.paragraph place (passage false all)), ls.length)

def addBlock (o : Outline) (l : Line) (c : Cursor) (more : List Line) : Outline × Nat :=
  let o := o.finishList
  let (indent, inner) := c.skip 4
  let t := inner.rest
  let place := l.placeOf t
  let html? : Option Html.Extent :=
    match t with
    | '<' :: markup => Html.block? markup
    | _ => none
  if indent = 4 then
    let ls := codeLines o.containers more
    let bare := (ls.reverse.dropWhile fun (_, c) => isBlankLine c.rest).reverse
    let code := ((l, inner) :: bare).map fun (l, c) => codeGlyphs l c
    ({ o.add (.indentedCode place code) with afterBlank := bare.length < ls.length }, ls.length)
  else
    match html? with
    | some e => (o.add (.html place), htmlLines o.containers e t more)
    | none =>
      if isThematicBreak t then (o, 0)
      else
        match heading? t with
        | some (level, rest) => (o.add (.heading place level (headingPassage l rest)), 0)
        | none =>
          match fence? t with
          | some f =>
            let (ls, n) := fenceLines o.containers f indent more
            (o.add (.fence place (Entity.resolve f.info) ls), n)
          | none => addParagraph o l t more

/-- Reads a line. Answers with the number of lines after it that are read with it. -/
def readLine (o : Outline) (l : Line) (more : List Line) : Outline × Nat :=
  let (n, c) := continued o.containers (.ofText l.text)
  match openContainers l (l.text.length + 1) (o.closeTo n) c with
  | (o, none) => (o, 0)
  | (o, some c) => if isBlankLine c.rest then (o.addBlank, 0) else addBlock o l c more

def readLines (o : Outline) : List Line → Outline
  | [] => o.closeTo 0
  | l :: more =>
    let (o, n) := readLine o l more
    readLines o (more.drop n)
termination_by ls => ls.length
decreasing_by simp only [List.length_drop, List.length_cons]; omega

def ofText (t : Text) : Outline := readLines .start (Line.ofText t)

def events (o : Outline) : List Event := Block.eventsOfAll o.labels false o.blocks.reverse

end Outline

end Docspec.Markdown
