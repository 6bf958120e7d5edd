import Docspec.Text.Basic

set_option autoImplicit false

namespace Docspec.Config

def endWord (word : Text) (more : List Text) : List Text :=
  if word.isEmpty then more else word :: more

def wordsFrom (inQuotes : Bool) (word : Text) : Text → List Text
  | [] => endWord word []
  | '"' :: t => wordsFrom (!inQuotes) word t
  | '\\' :: c :: t =>
    if inQuotes then wordsFrom true (word ++ [c]) t
    else if c = '"' then wordsFrom true (word ++ ['\\']) t
    else if Text.isAsciiBlank c then (word ++ ['\\']) :: wordsFrom false [] t
    else wordsFrom false (word ++ ['\\', c]) t
  | c :: t =>
    if c = '\\' && inQuotes then endWord word []
    else if Text.isAsciiBlank c && !inQuotes then endWord word (wordsFrom false [] t)
    else wordsFrom inQuotes (word ++ [c]) t

/-- The words of a line. A pair of quotes with nothing inside makes no word. -/
def splitWords (t : Text) : List Text := wordsFrom false [] t

end Docspec.Config
