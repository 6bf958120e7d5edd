import Docspec.Value

set_option autoImplicit false

namespace Docspec

structure Context where
  vars : Vars

namespace Context

def empty : Context := ⟨[]⟩

def set (name : Text) (v : Value) (c : Context) : Context := ⟨Bindings.insert name v c.vars⟩

def merge (more : Vars) (c : Context) : Context := ⟨Bindings.insertAll c.vars more⟩

def get? (name : Text) (c : Context) : Option Value := Bindings.get? name c.vars

def contains (name : Text) (c : Context) : Bool := Bindings.contains name c.vars

def unset (name : Text) (c : Context) : Context := ⟨Bindings.erase name c.vars⟩

def ofList (entries : List (Text × Value)) : Context := ⟨Bindings.ofList entries⟩

def size (c : Context) : Nat := c.vars.length

def isEmpty (c : Context) : Bool := c.vars.isEmpty

def same (c d : Context) : Bool := Value.sameEntries c.vars d.vars

theorem get?_set (name other : Text) (v : Value) (c : Context) :
    (c.set other v).get? name = if name = other then some v else c.get? name :=
  Bindings.get?_insert name other v c.vars

end Context

end Docspec
