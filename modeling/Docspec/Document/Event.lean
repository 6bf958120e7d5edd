import Docspec.Text.Basic

set_option autoImplicit false

namespace Docspec

/-- The constructs that are told apart. A span is markup inside a paragraph. -/
inductive Construct
  | heading (level : Nat)
  | quote
  | fence (info : Text)
  | indentedCode
  | span
  | other
deriving DecidableEq

inductive EventKind
  | start (c : Construct)
  | stop
  | text (t : Text)
  | code (t : Text)
  | softBreak
  | hardBreak
  | silent
deriving DecidableEq

structure Event where
  kind : EventKind
  offset : Nat
deriving DecidableEq

end Docspec
