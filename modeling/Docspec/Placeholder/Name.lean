import Docspec.Text.Basic

set_option autoImplicit false

namespace Docspec.Placeholder

def isNameStart (c : Char) : Bool := Text.isAsciiLower c || c == '_'

def isNameChar (c : Char) : Bool := isNameStart c || Text.isDigit c || c == '-'

/-- Variable names may hold dots, which lead into maps. -/
def isVariableChar (c : Char) : Bool := isNameChar c || c == '.'

def isName : Text → Bool
  | [] => false
  | c :: t => isNameStart c && t.all isNameChar

def hyphenate (t : Text) : Text := t.map fun c => if c = '_' then '-' else c

def canonicalName? (t : Text) : Option Text :=
  let lower := Text.asciiLower (Text.trim t)
  if isName lower then some (hyphenate lower) else none

end Docspec.Placeholder
