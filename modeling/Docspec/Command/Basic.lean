import Docspec.Command.Grammar

set_option autoImplicit false

namespace Docspec

structure Printed where
  text : Text
  destination : Option Text
deriving DecidableEq

inductive CommandError
  | arity (command : Text) (expected actual : Nat)
  | interpolation (command : Text) (cause : Placeholder.Error)
  | decode (contentType message : Text)
  | failed (command message : Text)
deriving DecidableEq

def CommandError.message : CommandError → Text
  | .arity command expected actual =>
    "invalid number of arguments passed to `".toList ++ command ++
      "` command: expected ".toList ++ Text.ofNat expected ++ ", got ".toList ++ Text.ofNat actual
  | .interpolation command cause => command ++ ": ".toList ++ cause.message
  | .decode contentType message =>
    "cannot decode `".toList ++ contentType ++ "` block: ".toList ++ message
  | .failed command message => command ++ ": ".toList ++ message

structure Session where
  engine : Engine
  output : List Printed
  /-- The words of the YAML reader for a text that it cannot read. -/
  yamlFault : Text → Text

namespace Session

def new (e : Engine) (yamlFault : Text → Text) : Session := ⟨e, [], yamlFault⟩

def emptied (s : Session) : Session := { s with output := [] }

def takeOutput (s : Session) : List Printed × Session := (s.output, s.emptied)

end Session

/-- What a command leaves: all that is printed by then, and not only what it adds. -/
structure Outcome where
  context : Context
  output : List Printed
  error : Option CommandError

namespace Outcome

def done (s : Session) (c : Context) : Outcome := ⟨c, s.output, none⟩

def refused (s : Session) (c : Context) (e : CommandError) : Outcome := ⟨c, s.output, some e⟩

end Outcome

abbrev Handler := Session → List Argument → Context → Outcome

inductive CommandKind
  | set
  | print
  | custom (handler : Handler)

def CommandKind.display : CommandKind → Text
  | .set => "Set"
  | .print => "Print"
  | .custom _ => "Custom(..)"

structure Command where
  id : Text
  kind : CommandKind
  arguments : List Argument

def Command.display (c : Command) : Text :=
  c.id ++ c.arguments.flatMap fun a => ' ' :: a.display

namespace Argument

def interpolateFor (command : Text) (e : Engine) (c : Context) (a : Argument) :
    Except CommandError Text :=
  (a.interpolate e c).mapError (.interpolation command)

def parseFor (command : Text) (e : Engine) (c : Context) (a : Argument) :
    Except CommandError Value :=
  (a.parse e c).mapError (.interpolation command)

end Argument

def checkArity (command : Text) (expected : Nat) (args : List Argument) :
    Except CommandError { as : List Argument // as.length = expected } :=
  if size : args.length = expected then .ok ⟨args, size⟩
  else .error (.arity command expected args.length)

@[simp] theorem checkArity_pair (command : Text) (a b : Argument) :
    checkArity command 2 [a, b] = .ok ⟨[a, b], rfl⟩ := rfl

theorem checkArity_of_ne {command : Text} {expected : Nat} {args : List Argument}
    (other : args.length ≠ expected) :
    checkArity command expected args = .error (.arity command expected args.length) :=
  dif_neg other

end Docspec
