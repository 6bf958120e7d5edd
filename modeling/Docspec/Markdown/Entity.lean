import Docspec.Markdown.Entity.Names
import Docspec.Text.Punctuation

set_option autoImplicit false

namespace Docspec.Markdown.Entity

def hexDigit? (c : Char) : Option Nat :=
  if Text.isDigit c then some (c.toNat - 48)
  else if 'a' ≤ c && c ≤ 'f' then some (c.toNat - 87)
  else if 'A' ≤ c && c ≤ 'F' then some (c.toNat - 55)
  else none

def numeral (base : Nat) (t : Text) : Nat :=
  t.foldl (fun n c => base * n + (hexDigit? c).getD 0) 0

def ofCodePoint (n : Nat) : Char :=
  if n = 0 || !decide n.isValidChar then Char.ofNat 0xFFFD else Char.ofNat n

def row (t : Text) : Text × Text :=
  match Text.splitOnce (· == '=') t with
  | some (name, codes) => (name, (Text.splitAll '+' codes).map fun n => ofCodePoint (numeral 16 n))
  | none => (t, [])

def table : List (Text × Text) :=
  ((names.toList.map fun c => if c = '\n' then ' ' else c) |> Text.splitAll ' ').map row

def named? (name : Text) : Option Text :=
  if name.isEmpty then none else (table.find? fun r => r.1 == name).map Prod.snd

def numeric? (base most : Nat) (isDigit : Char → Bool) (t : Text) : Option (Text × Text) :=
  let digits := t.takeWhile isDigit
  match t.drop digits.length with
  | ';' :: rest =>
    if 1 ≤ digits.length && digits.length ≤ most then
      some ([ofCodePoint (numeral base digits)], rest)
    else none
  | _ => none

def read? (t : Text) : Option (Text × Text) :=
  match t with
  | '#' :: 'x' :: rest | '#' :: 'X' :: rest => numeric? 16 6 (fun c => (hexDigit? c).isSome) rest
  | '#' :: rest => numeric? 10 7 Text.isDigit rest
  | _ =>
    let name := t.takeWhile fun c => Text.isAsciiLetter c || Text.isDigit c
    match t.drop name.length with
    | ';' :: rest => (named? name).map fun image => (image, rest)
    | _ => none

def resolveFrom : Nat → Text → Text
  | _, [] => []
  | skip + 1, _ :: t => resolveFrom skip t
  | 0, c :: t =>
    if c = '\\' then
      match t with
      | [] => [c]
      | d :: _ =>
        if Text.isAsciiPunctuation d then d :: resolveFrom 1 t else c :: resolveFrom 0 t
    else if c = '&' then
      match read? t with
      | some (image, rest) => image ++ resolveFrom (t.length - rest.length) t
      | none => c :: resolveFrom 0 t
    else if c = '\r' then resolveFrom 0 t
    else c :: resolveFrom 0 t

def resolve (t : Text) : Text := resolveFrom 0 t

end Docspec.Markdown.Entity
