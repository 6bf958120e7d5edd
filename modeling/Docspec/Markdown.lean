import Docspec.Document.Tokenizer
import Docspec.Markdown.Outline

set_option autoImplicit false

namespace Docspec.Markdown

def events (t : Text) : List Event := (Outline.ofText t).events

def tokens (t : Text) : List Token := Token.ofEvents t (events t)

end Docspec.Markdown
