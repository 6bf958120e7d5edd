import Docspec.Yaml.Scalar
import Docspec.Yaml.Token

set_option autoImplicit false

namespace Docspec.Yaml

/-- A text that may be a key: the number of tokens before it, its place, and whether its
indentation leaves no other reading. -/
structure PendingKey where
  position : Nat
  line : Nat
  column : Nat
  index : Nat
  required : Bool

structure Scanner where
  rest : List Glyph
  tokens : Array Token
  indent : Int
  outerIndents : List Int
  keyAllowed : Bool
  /-- The pending key of every flow level, the innermost first. The last one is of the block. -/
  keys : List (Option PendingKey)

namespace Scanner

def start (gs : List Glyph) : Scanner := ⟨gs, #[], -1, [], true, [none]⟩

def inFlow (s : Scanner) : Bool := 1 < s.keys.length

def push (t : Token) (s : Scanner) : Scanner := { s with tokens := s.tokens.push t }

def advance (n : Nat) (s : Scanner) : Scanner := { s with rest := s.rest.drop n }

def column (s : Scanner) : Nat :=
  match s.rest with
  | g :: _ => g.column
  | [] => 0

def leaveBlocks (column : Int) : List Int → Scanner → Scanner
  | [], s => s
  | outer :: more, s =>
    if s.inFlow || s.indent ≤ column then s
    else leaveBlocks column more ({ s with indent := outer, outerIndents := more }.push .blockEnd)

def unroll (column : Int) (s : Scanner) : Scanner := leaveBlocks column s.outerIndents s

def enterBlock (column : Nat) (position : Nat) (t : Token) (s : Scanner) : Scanner :=
  if s.inFlow || (column : Int) ≤ s.indent then s
  else
    { s with
      indent := column
      outerIndents := s.indent :: s.outerIndents
      tokens := s.tokens.insertIdxIfInBounds position t }

def dropKey (s : Scanner) : Option Scanner :=
  match s.keys with
  | some k :: more => if k.required then none else some { s with keys := none :: more }
  | _ => some s

def saveKey (s : Scanner) : Option Scanner :=
  match s.rest with
  | g :: _ =>
    if s.keyAllowed then do
      let s ← s.dropKey
      let key : PendingKey :=
        ⟨s.tokens.size, g.line, g.column, g.index, !s.inFlow && s.indent == (g.column : Int)⟩
      return { s with keys := some key :: s.keys.tail }
    else some s
  | [] => some s

/-- A key ends on its own line, within 1024 characters. -/
def dropStaleKeys (g : Glyph) : List (Option PendingKey) → Option (List (Option PendingKey))
  | [] => some []
  | none :: more => (dropStaleKeys g more).map (none :: ·)
  | some k :: more =>
    if k.line < g.line || k.index + 1024 < g.index then
      if k.required then none else (dropStaleKeys g more).map (none :: ·)
    else (dropStaleKeys g more).map (some k :: ·)

def skipBlanks (inFlow inComment keyAllowed : Bool) : List Glyph → Bool × List Glyph
  | [] => (keyAllowed, [])
  | g :: gs =>
    if isBreak g.char then skipBlanks inFlow false (keyAllowed || !inFlow) gs
    else if isEnd g.char then (keyAllowed, g :: gs)
    else if inComment then skipBlanks inFlow true keyAllowed gs
    else if g.char = ' ' || ((inFlow || !keyAllowed) && g.char = '\t') then
      skipBlanks inFlow false keyAllowed gs
    else if g.char = '#' then skipBlanks inFlow true keyAllowed gs
    else (keyAllowed, g :: gs)

def name? (gs : List Glyph) : Option (Text × List Glyph) :=
  let name := text (gs.takeWhile fun g => isNameLike g.char)
  let rest := gs.dropWhile fun g => isNameLike g.char
  if name.isEmpty then none
  else if nextIs (fun c => endsWord c || "?:,]\x7d%@`".toList.contains c) rest then
    some (name, rest)
  else none

def isUriChar (inBrackets : Bool) (c : Char) : Bool :=
  isNameLike c || ";/?:@&=+$.!~*'()".toList.contains c ||
    (inBrackets && ",[]".toList.contains c)

def hexByte? (gs : List Glyph) : Option (Nat × List Glyph) :=
  match gs with
  | p :: a :: b :: r =>
    if p.char = '%' then do
      let high ← hexValue? a.char
      let low ← hexValue? b.char
      return (16 * high + low, r)
    else none
  | _ => none

def moreBytes? : Nat → Nat → List Glyph → Option (Nat × List Glyph)
  | 0, value, gs => some (value, gs)
  | n + 1, value, gs => do
    let (byte, rest) ← hexByte? gs
    if byte / 64 = 2 then moreBytes? n (64 * value + byte % 64) rest else none

def encodedChar? (gs : List Glyph) : Option (Char × List Glyph) := do
  let (byte, rest) ← hexByte? gs
  let (width, value) ←
    if byte < 0x80 then some (0, byte)
    else if byte / 32 = 6 then some (1, byte % 32)
    else if byte / 16 = 14 then some (2, byte % 16)
    else if byte / 8 = 30 then some (3, byte % 8)
    else none
  let (code, rest) ← moreBytes? width value rest
  return (Char.ofNat code, rest)

def uri? (inBrackets : Bool) : Nat → Text → List Glyph → Option (Text × List Glyph)
  | 0, done, gs => some (done, gs)
  | fuel + 1, done, gs =>
    match gs with
    | g :: r =>
      if g.char = '%' then do
        let (c, rest) ← encodedChar? gs
        uri? inBrackets fuel (done ++ [c]) rest
      else if isUriChar inBrackets g.char then uri? inBrackets fuel (done ++ [g.char]) r
      else some (done, gs)
    | [] => some (done, [])

def tag? (inFlow : Bool) (gs : List Glyph) : Option (Text × Text × List Glyph) := do
  let (handle, suffix, rest) ←
    match gs with
    | g :: r =>
      if g.char = '<' then do
        let (uri, rest) ← uri? true r.length [] r
        match rest with
        | e :: rest => if e.char = '>' && !uri.isEmpty then some ([], uri, rest) else none
        | [] => none
      else
        let name := text (gs.takeWhile fun g => isNameLike g.char)
        let rest := gs.dropWhile fun g => isNameLike g.char
        match rest with
        | e :: after =>
          if e.char = '!' then do
            let (suffix, rest) ← uri? false after.length [] after
            if suffix.isEmpty then none else some ('!' :: name ++ ['!'], suffix, rest)
          else do
            let (suffix, rest) ← uri? false rest.length name rest
            if suffix.isEmpty then some ([], ['!'], rest) else some (['!'], suffix, rest)
        | [] => none
    | [] => none
  if nextIs (fun c => endsWord c || (inFlow && c = ',')) rest then some (handle, suffix, rest)
  else none

def directive? (gs : List Glyph) : Option (Token × List Glyph) := do
  let name := text (gs.takeWhile fun g => isNameLike g.char)
  let rest := gs.dropWhile fun g => isNameLike g.char
  if !nextIs endsWord rest then none
  let rest := rest.dropWhile fun g => isSpace g.char
  if name = "YAML".toList then do
    let major := text (rest.takeWhile fun g => Text.isDigit g.char)
    let rest := rest.dropWhile fun g => Text.isDigit g.char
    if !nextIs (· = '.') rest then none
    let rest := rest.drop 1
    let minor := text (rest.takeWhile fun g => Text.isDigit g.char)
    let rest := rest.dropWhile fun g => Text.isDigit g.char
    if major.length > 9 || minor.length > 9 then none
    let major ← Text.digits? major
    let minor ← Text.digits? minor
    let rest ← restOfLine? rest
    return (.versionDirective major minor, rest)
  else if name = "TAG".toList then do
    if !nextIs (· = '!') rest then none
    let afterMark := rest.drop 1
    let handle := text (afterMark.takeWhile fun g => isNameLike g.char)
    let afterName := afterMark.dropWhile fun g => isNameLike g.char
    let (handle, rest) ←
      if nextIs (· = '!') afterName then some ('!' :: handle ++ ['!'], afterName.drop 1)
      else if handle.isEmpty then some (['!'], afterName)
      else none
    if !nextIs isSpace rest then none
    let rest := rest.dropWhile fun g => isSpace g.char
    let (expansion, rest) ← uri? true rest.length [] rest
    if expansion.isEmpty || !nextIs endsWord rest then none
    let rest ← restOfLine? rest
    return (.tagDirective handle expansion, rest)
  else none

def openFlow (t : Token) (s : Scanner) : Option Scanner := do
  let s ← s.saveKey
  return { s with keys := none :: s.keys, keyAllowed := true }.push t |>.advance 1

def closeFlow (t : Token) (s : Scanner) : Option Scanner := do
  let s ← s.dropKey
  let keys := if s.inFlow then s.keys.tail else s.keys
  return { s with keys := keys, keyAllowed := false }.push t |>.advance 1

def betweenDocuments (s : Scanner) : Option Scanner := do
  let s ← (s.unroll (-1)).dropKey
  return { s with keyAllowed := false }

def blockIndicator (start mark : Token) (allowedAfter : Bool) (s : Scanner) : Option Scanner := do
  if !s.inFlow && !s.keyAllowed then none
  let s := s.enterBlock s.column s.tokens.size start
  let s ← s.dropKey
  return { s with keyAllowed := allowedAfter }.push mark |>.advance 1

def valueIndicator (s : Scanner) : Option Scanner :=
  match s.keys with
  | some k :: more =>
    let s := { s with tokens := s.tokens.insertIdxIfInBounds k.position .key, keys := none :: more }
    let s := s.enterBlock k.column k.position .blockMappingStart
    some ({ s with keyAllowed := false }.push .value |>.advance 1)
  | _ =>
    if !s.inFlow && !s.keyAllowed then none
    else
      let s := s.enterBlock s.column s.tokens.size .blockMappingStart
      some ({ s with keyAllowed := !s.inFlow }.push .value |>.advance 1)

def keyLike (read : List Glyph → Option (Token × List Glyph)) (s : Scanner) :
    Option Scanner := do
  let s ← s.saveKey
  let (t, rest) ← read s.rest
  return { s with keyAllowed := false, rest := rest }.push t

def blockScalarToken (folded : Bool) (s : Scanner) : Option Scanner := do
  let s ← s.dropKey
  let (t, rest) ← blockScalar folded s.indent (s.rest.drop 1)
  return { s with keyAllowed := true, rest := rest }.push (.scalar t false)

def plainToken (s : Scanner) : Option Scanner := do
  let s ← s.saveKey
  let (t, rest, afterBreak) ← plain s.inFlow (s.indent + 1) [] .none s.rest
  return { s with keyAllowed := afterBreak, rest := rest }.push (.scalar t true)

def startsPlain (inFlow : Bool) (c : Char) (after : List Glyph) : Bool :=
  !(endsWord c || "-?:,[]\x7b\x7d#&*!|>'\"%@`".toList.contains c) ||
    (c = '-' && !nextIs isSpace after) ||
    (!inFlow && (c = '?' || c = ':') && !nextIs endsWord after)

def next (g : Glyph) (after : List Glyph) (s : Scanner) : Option Scanner :=
  let c := g.char
  let wordEnds := nextIs endsWord after
  if g.column = 0 && c = '%' then do
    let s ← s.betweenDocuments
    let (t, rest) ← directive? after
    return { s with rest := rest }.push t
  else if isDocumentMark '-' s.rest then
    s.betweenDocuments.map fun s => s.push .documentStart |>.advance 3
  else if isDocumentMark '.' s.rest then
    s.betweenDocuments.map fun s => s.push .documentEnd |>.advance 3
  else if c = '[' then s.openFlow .flowSequenceStart
  else if c = '\x7b' then s.openFlow .flowMappingStart
  else if c = ']' then s.closeFlow .flowSequenceEnd
  else if c = '\x7d' then s.closeFlow .flowMappingEnd
  else if c = ',' then
    s.dropKey.map fun s => { s with keyAllowed := true }.push .flowEntry |>.advance 1
  else if c = '-' && wordEnds then s.blockIndicator .blockSequenceStart .blockEntry true
  else if c = '?' && (s.inFlow || wordEnds) then
    s.blockIndicator .blockMappingStart .key (!s.inFlow)
  else if c = ':' && (s.inFlow || wordEnds) then s.valueIndicator
  else if c = '*' then
    s.keyLike fun gs => (name? (gs.drop 1)).map fun (n, rest) => (.alias n, rest)
  else if c = '&' then
    s.keyLike fun gs => (name? (gs.drop 1)).map fun (n, rest) => (.anchor n, rest)
  else if c = '!' then
    s.keyLike fun gs =>
      (tag? s.inFlow (gs.drop 1)).map fun (handle, suffix, rest) => (.tag handle suffix, rest)
  else if c = '|' && !s.inFlow then s.blockScalarToken false
  else if c = '>' && !s.inFlow then s.blockScalarToken true
  else if c = '\'' then
    s.keyLike fun gs =>
      (singleQuoted false [] .none (gs.drop 1)).map fun (t, rest) => (.scalar t false, rest)
  else if c = '"' then
    s.keyLike fun gs =>
      (doubleQuoted .outside [] .none (gs.drop 1)).map fun (t, rest) => (.scalar t false, rest)
  else if startsPlain s.inFlow c after then s.plainToken
  else none

-- Reads tokens to the end of the stream. Every token takes at least one character, so `fuel`
-- need only exceed the number of characters.
def run : Nat → Scanner → Option (List Token)
  | 0, _ => none
  | fuel + 1, s => do
    let (keyAllowed, rest) := skipBlanks s.inFlow false s.keyAllowed s.rest
    let s := { s with keyAllowed := keyAllowed, rest := rest }
    match rest with
    | [] => none
    | g :: after =>
      let keys ← dropStaleKeys g s.keys
      let s := { s with keys := keys }.unroll g.column
      if isEnd g.char then
        let s ← s.betweenDocuments
        return (s.push .streamEnd).tokens.toList
      else do
        let s ← s.next g after
        run fuel s

end Scanner

def tokens? (t : Text) : Option (List Token) := do
  let gs ← glyphs? t
  Scanner.run (gs.length + 1) (Scanner.start gs)

end Docspec.Yaml
