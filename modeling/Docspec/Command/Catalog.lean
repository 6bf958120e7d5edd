import Docspec.Bindings
import Docspec.Command.Builtin

set_option autoImplicit false

namespace Docspec

structure CommandSpec where
  id : Text
  grammar : LineGrammar
  kind : CommandKind

namespace CommandSpec

def split (s : CommandSpec) (line : Text) : List Argument := s.grammar.split line

def instantiate (s : CommandSpec) (args : List Argument) : Command := ⟨s.id, s.kind, args⟩

def set : CommandSpec := ⟨SetCommand.name, .ofSet, .set⟩

def print : CommandSpec := ⟨PrintCommand.name, .ofPrint, .print⟩

end CommandSpec

abbrev Catalog := Bindings CommandSpec

namespace Catalog

def empty : Catalog := []

def register (s : CommandSpec) (c : Catalog) : Catalog := Bindings.insert s.id s c

def unregister (id : Text) (c : Catalog) : Catalog := Bindings.erase id c

def resolve? (id : Text) (c : Catalog) : Option CommandSpec := Bindings.get? id c

def contains (id : Text) (c : Catalog) : Bool := Bindings.contains id c

def ids (c : Catalog) : List Text := Bindings.names c

def builtin : Catalog := (empty.register .set |> register .print)

def unknownMessage (id : Text) : Text := "unknown command `".toList ++ id ++ "`".toList

end Catalog

end Docspec
