import Docspec.Bindings
import Docspec.Placeholder.Error
import Docspec.Placeholder.Name

set_option autoImplicit false

namespace Docspec.Placeholder

/-- Turns a shown value into another text, with the argument written after the filter's name. -/
abbrev Filter := Text → Option Text → Except Text Text

abbrev Function := Option Text → Except Text Text

structure Registry where
  filters : Bindings Filter
  functions : Bindings Function

namespace Registry

def empty : Registry := ⟨[], []⟩

def addFilter (name : Text) (f : Filter) (r : Registry) : Except Error Registry :=
  match canonicalName? name with
  | some key => .ok { r with filters := Bindings.insert key f r.filters }
  | none => .error (.badName name)

def addFunction (name : Text) (f : Function) (r : Registry) : Except Error Registry :=
  match canonicalName? name with
  | some key => .ok { r with functions := Bindings.insert key f r.functions }
  | none => .error (.badName name)

def filter? (name : Text) (r : Registry) : Option Filter :=
  (canonicalName? name).bind fun key => Bindings.get? key r.filters

def function? (name : Text) (r : Registry) : Option Function :=
  (canonicalName? name).bind fun key => Bindings.get? key r.functions

def removeFilter (name : Text) (r : Registry) : Registry × Bool :=
  match canonicalName? name with
  | some key =>
    ({ r with filters := Bindings.erase key r.filters }, Bindings.contains key r.filters)
  | none => (r, false)

def removeFunction (name : Text) (r : Registry) : Registry × Bool :=
  match canonicalName? name with
  | some key =>
    ({ r with functions := Bindings.erase key r.functions }, Bindings.contains key r.functions)
  | none => (r, false)

def clear (_ : Registry) : Registry := empty

def filterNames (r : Registry) : List Text := Bindings.names r.filters

def functionNames (r : Registry) : List Text := Bindings.names r.functions

def quoted (t : Text) : Text := '"' :: t ++ ['"']

def listed (names : List Text) : Text :=
  '[' :: Text.joinWith ", " (names.map quoted) ++ [']']

def summary (r : Registry) : Text :=
  "Registry \x7b filters: ".toList ++ listed r.filterNames ++ ", functions: ".toList ++
    listed r.functionNames ++ " \x7d".toList

end Registry

end Docspec.Placeholder
