import Docspec.Markdown.Html

set_option autoImplicit false

namespace Docspec.Markdown.Autolink

def isSchemeChar (c : Char) : Bool :=
  Html.isAlphanumeric c || c == '.' || c == '-' || c == '+'

def isAddressChar (c : Char) : Bool := 0x20 < c.toNat && c != '<' && c != '>'

def uri? (t : Text) : Option (Text × Text) :=
  let scheme := t.takeWhile isSchemeChar
  match t.drop scheme.length with
  | ':' :: rest =>
    if scheme.head?.any Text.isAsciiLetter && 2 ≤ scheme.length && scheme.length ≤ 32 then
      let address := rest.takeWhile isAddressChar
      match rest.drop address.length with
      | '>' :: after => some (scheme ++ ':' :: address, after)
      | _ => none
    else none
  | _ => none

def isMailboxChar (c : Char) : Bool :=
  Html.isAlphanumeric c || c == Char.ofNat 39 || c == backtick ||
    ".!#$%&*+/=?^_\x7b|\x7d~-".toList.contains c

def isHostLabel (t : Text) : Bool :=
  !t.isEmpty && t.length ≤ 63 && t.all Html.isNameChar &&
    t.head? != some '-' && t.getLast? != some '-'

def email? (t : Text) : Option (Text × Text) :=
  let mailbox := t.takeWhile isMailboxChar
  match t.drop mailbox.length with
  | '@' :: rest =>
    let host := rest.takeWhile fun c => Html.isNameChar c || c == '.'
    match rest.drop host.length with
    | '>' :: after =>
      if !mailbox.isEmpty && (Text.splitAll '.' host).all isHostLabel then
        some (mailbox ++ '@' :: host, after)
      else none
    | _ => none
  | _ => none

def read? (t : Text) : Option (Text × Text) :=
  match uri? t with
  | some r => some r
  | none => email? t

end Docspec.Markdown.Autolink
