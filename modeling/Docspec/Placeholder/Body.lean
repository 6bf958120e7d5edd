import Docspec.Placeholder.Name

set_option autoImplicit false

namespace Docspec.Placeholder

structure Body where
  identifier : Text
  filters : List Text
  /-- What no filter accounts for, blanks at the end left out. Empty in a well-formed body. -/
  invalid : Text
  invalidOffset : Nat
deriving DecidableEq

namespace Body

/-- A call at the start of a text, up to the first closing parenthesis, and the text after it. At
most one blank may stand before the opening parenthesis. -/
def call? (t : Text) : Option (Text × Text) :=
  let name := t.takeWhile isNameChar
  let rest := t.dropWhile isNameChar
  let (gap, rest) :=
    match rest with
    | c :: r => if Text.isBlank c then ([c], r) else ([], rest)
    | [] => ([], rest)
  match rest with
  | '(' :: r =>
    (Text.splitOnce (· = ')') r).map fun (argument, after) =>
      (name ++ gap ++ '(' :: argument ++ [')'], after)
  | _ => none

def takeIdentifier (t : Text) : Text × Text :=
  match call? t with
  | some r => r
  | none => (t.takeWhile isVariableChar, t.dropWhile isVariableChar)

def isFilter (t : Text) : Bool :=
  match Text.trimStart t with
  | c :: _ => isNameStart c
  | [] => false

def filterChain (t : Text) : List Text × Text :=
  match Text.splitAll '|' t with
  | [] :: pieces =>
    (pieces.takeWhile isFilter, (pieces.dropWhile isFilter).flatMap fun p => '|' :: p)
  | _ => ([], t)

def parse? (t : Text) : Option Body :=
  let content := Text.trimStart t
  match content with
  | [] => none
  | c :: _ =>
    if isNameStart c then
      let (name, after) := takeIdentifier content
      let (filters, left) := filterChain (Text.trimStart after)
      some {
        identifier := Text.trim name
        filters := filters.map Text.trim
        invalid := Text.trimEnd left
        invalidOffset := Text.byteLength t - Text.byteLength left }
    else none

end Body

end Docspec.Placeholder
