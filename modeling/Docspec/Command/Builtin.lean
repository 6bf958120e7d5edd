import Docspec.Command.Basic
import Docspec.Yaml.Node

set_option autoImplicit false

namespace Docspec

namespace SetCommand

def name : Text := "set"

def decoded (s : Session) (c : Context) (a : Argument) : Except CommandError Value :=
  (a.interpolateFor name s.engine c).bind fun text =>
    match Yaml.decode? text with
    | some v => .ok v
    | none => .error (.decode ((a.block.map BlockInfo.contentType).getD []) (s.yamlFault text))

/-- The context with a variable bound. A decoded map binds each of its own names instead. -/
def bound (s : Session) (c : Context) (target value : Argument) : Except CommandError Context :=
  (target.parseFor name s.engine c).bind fun target =>
    if value.isStructured then
      (decoded s c value).map fun v =>
        match v with
        | .map entries => c.merge entries
        | v => c.set target.display v
    else (value.parseFor name s.engine c).map fun v => c.set target.display v

def execute (s : Session) (args : List Argument) (c : Context) : Outcome :=
  match (checkArity name 2 args).bind fun ⟨args, _⟩ => bound s c args[0] args[1] with
  | .ok c' => .done s c'
  | .error err => .refused s c err

theorem execute_pair (s : Session) (target value : Argument) (c : Context) :
    execute s [target, value] c =
      match bound s c target value with
      | .ok c' => .done s c'
      | .error err => .refused s c err := rfl

end SetCommand

namespace PrintCommand

def name : Text := "print"

def printed (s : Session) (c : Context) (text destination : Argument) :
    Except CommandError Printed :=
  (text.interpolateFor name s.engine c).bind fun text =>
    (destination.interpolateFor name s.engine c).map fun d =>
      ⟨text, if d.isEmpty then none else some d⟩

def execute (s : Session) (args : List Argument) (c : Context) : Outcome :=
  match (checkArity name 2 args).bind fun ⟨args, _⟩ => printed s c args[0] args[1] with
  | .ok p => ⟨c, s.output ++ [p], none⟩
  | .error err => .refused s c err

theorem execute_pair (s : Session) (text destination : Argument) (c : Context) :
    execute s [text, destination] c =
      match printed s c text destination with
      | .ok p => ⟨c, s.output ++ [p], none⟩
      | .error err => .refused s c err := rfl

end PrintCommand

def Command.execute (cmd : Command) (s : Session) (c : Context) : Outcome :=
  match cmd.kind with
  | .set => SetCommand.execute s cmd.arguments c
  | .print => PrintCommand.execute s cmd.arguments c
  | .custom handler => handler s cmd.arguments c

end Docspec
