import Docspec.Context
import Docspec.Decimal.Reader
import Docspec.Placeholder.Engine

set_option autoImplicit false

namespace Docspec

structure BlockInfo where
  contentType : Text
  extra : Text
deriving DecidableEq

structure Argument where
  value : Text
  block : Option BlockInfo
deriving DecidableEq

namespace Argument

def ofLine (value : Text) : Argument := ⟨value, none⟩

def ofBlock (value contentType extra : Text) : Argument := ⟨value, some ⟨contentType, extra⟩⟩

def isBlock (a : Argument) : Bool := a.block.isSome

def structuredTypes : List Text := ["yaml".toList, "yml".toList, "json".toList]

def isStructured (a : Argument) : Bool :=
  match a.block with
  | some b => structuredTypes.any (Text.sameIgnoringAsciiCase b.contentType)
  | none => false

/-- A zero before anything but a point, as in telephone numbers. -/
def startsWithBareZero : Text → Bool
  | '0' :: c :: _ => c != '.'
  | _ => false

def literalOf? (t : Text) : Option Value :=
  if t = "true".toList then some (.bool true)
  else if t = "false".toList then some (.bool false)
  else if startsWithBareZero t then none
  else
    match Decimal.readWord? t with
    | some n => some (.int n)
    | none => (Decimal.readDouble? t).map .float

def literal? (a : Argument) : Option Value := literalOf? a.value

def interpolate (e : Engine) (c : Context) (a : Argument) : Except Placeholder.Error Text :=
  e.interpolate a.value c.vars

def parse (e : Engine) (c : Context) (a : Argument) : Except Placeholder.Error Value :=
  match a.literal? with
  | some v => .ok v
  | none => (a.interpolate e c).map .str

def display (a : Argument) : Text :=
  match a.block with
  | some b => "code@".toList ++ b.contentType
  | none => a.value

end Argument

end Docspec
