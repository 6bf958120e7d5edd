import Docspec.Markdown.Mark

set_option autoImplicit false

namespace Docspec.Markdown.Html

def isNameChar (c : Char) : Bool := Text.isAsciiLetter c || Text.isDigit c || c == '-'

def isAlphanumeric (c : Char) : Bool := Text.isAsciiLetter c || Text.isDigit c

def skipBlanks (multiline : Bool) (t : Text) : Option Text :=
  match t.dropWhile (if multiline then isBlankOrLineEnd else isLineBlank) with
  | [] => none
  | c :: rest => if isLineEnd c then none else some (c :: rest)

def isAttributeStart (c : Char) : Bool := Text.isAsciiLetter c || c == '_' || c == ':'

def isAttributeChar (c : Char) : Bool :=
  isAlphanumeric c || c == '_' || c == '.' || c == ':' || c == '-'

def isPlainValueChar (c : Char) : Bool :=
  !(isBlankOrLineEnd c || c == '"' || c == Char.ofNat 39 || c == '=' || c == '<' || c == '>' ||
    c == backtick)

def quotedValue? (multiline : Bool) (quote : Char) : Text → Option Text
  | [] => none
  | c :: t =>
    if c = quote then some t
    else if isLineEnd c && !multiline then none
    else quotedValue? multiline quote t

def attributeValue? (multiline : Bool) (t : Text) : Option Text :=
  match t with
  | [] => none
  | c :: rest =>
    if c == '"' || c == Char.ofNat 39 then quotedValue? multiline c rest
    else if isPlainValueChar c then some (rest.dropWhile isPlainValueChar)
    else none

def attribute? (multiline : Bool) (t : Text) : Option Text :=
  match t with
  | [] => none
  | c :: rest =>
    if isAttributeStart c then
      let after := rest.dropWhile isAttributeChar
      match skipBlanks multiline after with
      | some ('=' :: value) =>
        match skipBlanks multiline value with
        | some value => attributeValue? multiline value
        | none => none
      | _ => some after
    else none

-- The attributes of a tag, each after a blank, up to the end of the tag. Every round reads at
-- least one character, so as many rounds as characters are enough.
def attributes? (multiline : Bool) : Nat → Text → Option Text
  | 0, _ => none
  | rounds + 1, t =>
    match skipBlanks multiline t with
    | none => none
    | some after =>
      match after with
      | '/' :: _ | '>' :: _ => some after
      | _ =>
        if after.length = t.length then none
        else
          match attribute? multiline after with
          | some more => attributes? multiline rounds more
          | none => none

def tag? (multiline : Bool) (t : Text) : Option Text :=
  match t with
  | '/' :: c :: name =>
    if Text.isAsciiLetter c then
      match (name.dropWhile isNameChar).dropWhile isLineBlank with
      | '>' :: rest => some rest
      | _ => none
    else none
  | c :: name =>
    if Text.isAsciiLetter c then
      let inside := name.dropWhile isNameChar
      match attributes? multiline (inside.length + 1) inside with
      | some ('/' :: '>' :: rest) => some rest
      | some ('>' :: rest) => some rest
      | _ => none
    else none
  | [] => none

inductive Extent
  | through (mark : Text)
  | toBlank
deriving DecidableEq

def rawTags : List (Text × Text) :=
  [("pre", "</pre>"), ("style", "</style>"), ("script", "</script>"), ("textarea", "</textarea>")]

def marks : List (Text × Text) := [("!--", "-->"), ("?", "?>"), ("![CDATA[", "]]>")]

def blockTags : List Text :=
  List.map String.toList [
    "address", "article", "aside", "base", "basefont", "blockquote", "body", "caption", "center",
    "col", "colgroup", "dd", "details", "dialog", "dir", "div", "dl", "dt", "fieldset",
    "figcaption", "figure", "footer", "form", "frame", "frameset", "h1", "h2", "h3", "h4", "h5",
    "h6", "head", "header", "hr", "html", "iframe", "legend", "li", "link", "main", "menu",
    "menuitem", "nav", "noframes", "ol", "optgroup", "option", "p", "param", "search", "section",
    "summary", "table", "tbody", "td", "tfoot", "th", "thead", "title", "tr", "track", "ul"]

def beginsRawTag (t : Text) (name : Text) : Bool :=
  Text.sameIgnoringAsciiCase (t.take name.length) name &&
    ((t.drop name.length).head?.all fun c => isBlankOrLineEnd c || c == '>')

def beginsBlockTag (t : Text) : Bool :=
  let inner := match t with
    | '/' :: rest => rest
    | _ => t
  let name := inner.takeWhile isAlphanumeric
  let rest := inner.drop name.length
  blockTags.contains (Text.asciiLower name) &&
    (match rest with
      | [] => true
      | '/' :: '>' :: _ => true
      | c :: _ => isSpaceOrTab c || c == '>')

def isDeclaration (t : Text) : Bool :=
  match t with
  | '!' :: c :: _ => Text.isAsciiLetter c
  | _ => false

def interrupting? (t : Text) : Option Extent :=
  match rawTags.find? fun (name, _) => beginsRawTag t name with
  | some (_, closing) => some (.through closing)
  | none =>
    match marks.find? fun (opening, _) => Text.startsWith opening t with
    | some (_, closing) => some (.through closing)
    | none =>
      if isDeclaration t then some (.through ['>'])
      else if beginsBlockTag t then some .toBlank
      else none

def block? (t : Text) : Option Extent :=
  match interrupting? t with
  | some e => some e
  | none =>
    match tag? false t with
    | some rest => if isBlankLine rest then some .toBlank else none
    | none => none

def commentEnd? (dashes : Nat) : Text → Option Text
  | [] => none
  | c :: t =>
    if c = '-' then commentEnd? (dashes + 1) t
    else if c = '>' && 2 ≤ dashes then some t
    else commentEnd? 0 t

def comment? (t : Text) : Option Text :=
  match t.dropWhile (· == '-') with
  | '>' :: rest => some rest
  | rest => commentEnd? 0 rest

def processingEnd? : Text → Option Text
  | '?' :: '>' :: t => some t
  | _ :: t => processingEnd? t
  | [] => none

/-- Raw text ends with the first run of closing brackets, which a `>` must follow. -/
def rawTextEnd? (t : Text) : Option Text :=
  match t.dropWhile (· != ']') with
  | [] => none
  | rest =>
    match rest.dropWhile (· == ']') with
    | '>' :: after => some after
    | _ => none

def declarationEnd? (t : Text) : Option Text :=
  match t.dropWhile (· != '>') with
  | [] => none
  | _ :: rest => some rest

def inline? (t : Text) : Option Text :=
  match t with
  | '!' :: '-' :: '-' :: rest => comment? rest
  | '!' :: rest =>
    match Text.stripFront? "[CDATA[" rest with
    | some raw => rawTextEnd? raw
    | none => if rest.head?.any Text.isAsciiLetter then declarationEnd? rest else none
  | '?' :: rest => processingEnd? rest
  | _ => tag? true t

end Docspec.Markdown.Html
