import Docspec.Placeholder.Registry
import Docspec.Text.Alphanumeric
import Docspec.Text.Case

set_option autoImplicit false

namespace Docspec.Placeholder

def collapseUnderscores : Text → Text
  | [] => []
  | ['_'] => ['_']
  | '_' :: '_' :: t => collapseUnderscores ('_' :: t)
  | c :: t => c :: collapseUnderscores t

def isWordPart (c : Char) : Bool := Text.isAlphanumeric c || c == '_'

def snakeFirst (c : Char) : Text := if isWordPart c then Text.lowerChar c else ['_']

/-- A later character of a name in snake case: an ASCII capital starts a new word. -/
def snakeNext (c : Char) : Text :=
  if !isWordPart c then ['_']
  else if Text.isAsciiUpper c then ['_', c.toLower]
  else [c]

def snakeCase : Text → Text
  | [] => []
  | c :: t => collapseUnderscores (snakeFirst c ++ t.flatMap snakeNext)

def hyphens (t : Text) : Text := hyphenate (snakeCase t)

/-- Replaces the text before the first `>` of the argument by the text after it, up to the next
one. -/
def replace (t : Text) (argument : Option Text) : Except Text Text :=
  let argument := argument.getD []
  match Text.splitAll '>' argument with
  | pat :: image :: _ => .ok (Text.replaceAll (Text.trim pat) (Text.trim image) t)
  | _ =>
    .error ("expects `from > to` format, `".toList ++ argument ++ "` passed instead".toList)

def builtinFilters : List (Text × Filter) :=
  [("snake-case", fun t _ => .ok (snakeCase t)),
   ("hyphens", fun t _ => .ok (hyphens t)),
   ("strip", fun t _ => .ok (Text.trim t)),
   ("lower-case", fun t _ => .ok (Text.lowerCase t)),
   ("upper-case", fun t _ => .ok (Text.upperCase t)),
   ("replace", replace)]

end Docspec.Placeholder
