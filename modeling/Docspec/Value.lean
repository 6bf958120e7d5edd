import Docspec.Bindings
import Docspec.Decimal.Shortest

set_option autoImplicit false

namespace Docspec

/-- The entries of a map are in ascending order of their names, each name once. -/
inductive Value
  | null
  | bool (b : Bool)
  | int (n : Int)
  | float (x : Double)
  | str (s : Text)
  | list (items : List Value)
  | map (entries : List (Text × Value))

abbrev Vars := Bindings Value

instance : Inhabited Value := ⟨.null⟩

namespace Value

mutual

def display : Value → Text
  | .null => []
  | .bool true => "true"
  | .bool false => "false"
  | .int n => Text.ofInt n
  | .float x => x.display
  | .str s => s
  | .list items => '[' :: displayItems items
  | .map entries => '\x7b' :: displayEntries entries

def displayItems : List Value → Text
  | [] => [']']
  | [v] => display v ++ [']']
  | v :: w :: r => display v ++ ", ".toList ++ displayItems (w :: r)

def displayEntries : List (Text × Value) → Text
  | [] => ['\x7d']
  | [(k, v)] => k ++ ": ".toList ++ display v ++ ['\x7d']
  | (k, v) :: e :: r => k ++ ": ".toList ++ display v ++ ", ".toList ++ displayEntries (e :: r)

end

def typeName : Value → Text
  | .null => "null"
  | .bool _ => "boolean"
  | .int _ => "integer"
  | .float _ => "float"
  | .str _ => "string"
  | .list _ => "list"
  | .map _ => "map"

def asMap? : Value → Option Vars
  | .map entries => some entries
  | _ => none

def isMap (v : Value) : Bool := v.asMap?.isSome

/-- Walks a path through nested maps, stopping at the first name that is missing and at anything
that is not a map. -/
def lookup : List Text → Value → Option Value
  | [], v => some v
  | k :: path, .map entries => (Bindings.get? k entries).bind (lookup path)
  | _ :: _, _ => none

@[simp] theorem lookup_nil (v : Value) : lookup [] v = some v := by cases v <;> rfl

mutual

def same : Value → Value → Bool
  | .null, .null => true
  | .bool a, .bool b => a == b
  | .int a, .int b => a == b
  | .float a, .float b => a.same b
  | .str a, .str b => a == b
  | .list a, .list b => sameItems a b
  | .map a, .map b => sameEntries a b
  | _, _ => false

def sameItems : List Value → List Value → Bool
  | [], [] => true
  | v :: a, w :: b => same v w && sameItems a b
  | _, _ => false

def sameEntries : List (Text × Value) → List (Text × Value) → Bool
  | [], [] => true
  | (k, v) :: a, (l, w) :: b => k == l && same v w && sameEntries a b
  | _, _ => false

end

end Value

end Docspec
