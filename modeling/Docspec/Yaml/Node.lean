import Docspec.Decimal.Reader
import Docspec.Value
import Docspec.Yaml.Tree

set_option autoImplicit false

namespace Docspec.Yaml

inductive Node
  | null
  | bool (b : Bool)
  | int (n : Int)
  | float (x : Double)
  | str (s : Text)
  | seq (items : List Node)
  | map (entries : List (Node × Node))
  | tagged (tag : Text) (content : Node)

namespace Node

def sameFloat : Double → Double → Bool
  | .nan, .nan => true
  | a, b => a.same b

mutual

def same : Node → Node → Bool
  | .null, .null => true
  | .bool a, .bool b => a == b
  | .int a, .int b => a == b
  | .float a, .float b => sameFloat a b
  | .str a, .str b => a == b
  | .seq a, .seq b => sameItems a b
  | .map a, .map b => a.length == b.length && entriesIn a b
  | .tagged s a, .tagged t b => s == t && same a b
  | _, _ => false

def sameItems : List Node → List Node → Bool
  | [], [] => true
  | a :: as, b :: bs => same a b && sameItems as bs
  | _, _ => false

def entriesIn : List (Node × Node) → List (Node × Node) → Bool
  | [], _ => true
  | (k, v) :: more, other =>
    (other.any fun (l, w) => same k l && same v w) && entriesIn more other

end

mutual

/-- The value of a node: tags are dropped, and keys become their text. -/
def toValue : Node → Value
  | .null => .null
  | .bool b => .bool b
  | .int n => if Decimal.fitsWord n then .int n else .float (Double.ofInt n)
  | .float x => .float x
  | .str s => .str s
  | .seq items => .list (toValues items)
  | .map entries => .map (Bindings.ofList (toEntries entries))
  | .tagged _ content => toValue content

def toValues : List Node → List Value
  | [] => []
  | n :: more => toValue n :: toValues more

def toEntries : List (Node × Node) → List (Text × Value)
  | [] => []
  | (k, v) :: more => ((toValue k).display, toValue v) :: toEntries more

end

def null? (t : Text) : Bool :=
  t == "null".toList || t == "Null".toList || t == "NULL".toList || t == "~".toList

def bool? (t : Text) : Option Bool :=
  if t = "true".toList ∨ t = "True".toList ∨ t = "TRUE".toList then some true
  else if t = "false".toList ∨ t = "False".toList ∨ t = "FALSE".toList then some false
  else none

def digitIn? (base : Nat) (c : Char) : Option Nat := (hexValue? c).filter (· < base)

def digitsIn? (base : Nat) (t : Text) : Option Nat :=
  if t.isEmpty then none
  else t.foldl (fun n c => do return base * (← n) + (← digitIn? base c)) (some 0)

def hasLeadingZero (t : Text) : Bool :=
  match t with
  | '-' :: '0' :: c :: r => (c :: r).all Text.isDigit
  | '+' :: '0' :: c :: r => (c :: r).all Text.isDigit
  | '0' :: c :: r => (c :: r).all Text.isDigit
  | _ => false

def magnitude? (t : Text) : Option Nat :=
  match t with
  | '0' :: 'x' :: r => digitsIn? 16 r
  | '0' :: 'o' :: r => digitsIn? 8 r
  | '0' :: 'b' :: r => digitsIn? 2 r
  | _ => if hasLeadingZero t then none else digitsIn? 10 t

/-- What a text says as a whole number: nothing, a number, or one too large for any type. -/
inductive Whole
  | none
  | number (n : Int)
  | tooLarge

-- Numbers of 64 digits are read, with a sign or without; longer ones up to 128 digits are
-- refused, and beyond that a text is no whole number.
def whole (t : Text) : Whole :=
  match t with
  | '-' :: r =>
    match magnitude? r with
    | some n =>
      if n ≤ Nat.pow 2 63 then .number (-(n : Int))
      else if n ≤ Nat.pow 2 127 then .tooLarge
      else .none
    | Option.none => .none
  | _ =>
    let r := match t with | '+' :: r => r | _ => t
    match magnitude? r with
    | some n =>
      if n < Nat.pow 2 64 then .number n else if n < Nat.pow 2 128 then .tooLarge else .none
    | Option.none => .none

def float? (t : Text) : Option Double :=
  let unsigned := match t with | '+' :: r => r | _ => t
  let infinity := [".inf".toList, ".Inf".toList, ".INF".toList]
  if unsigned.length < t.length ∧ (unsigned.head? = some '+' ∨ unsigned.head? = some '-') then none
  else if infinity.contains unsigned then some (.infinite false)
  else if (infinity.map ('-' :: ·)).contains t then some (.infinite true)
  else if [".nan".toList, ".NaN".toList, ".NAN".toList].contains t then some .nan
  else (Decimal.readDouble? unsigned).filter Double.isFinite

def ofPlain? (t : Text) : Option Node :=
  if t.isEmpty || null? t then some .null
  else
    match bool? t with
    | some b => some (.bool b)
    | none =>
      match whole t with
      | .number n => some (.int n)
      | .tooLarge => none
      | .none =>
        if hasLeadingZero t then some (.str t)
        else
          match float? t with
          | some x => some (.float x)
          | none => some (.str t)

def coreTag (name : String) : Text := "tag:yaml.org,2002:".toList ++ name.toList

def ofScalar? (tag : Option Text) (plain : Bool) (t : Text) : Option Node :=
  if tag = some (coreTag "bool") then (bool? t).map .bool
  else if tag = some (coreTag "int") then
    match whole t with
    | .number n => some (.int n)
    | _ => none
  else if tag = some (coreTag "float") then (float? t).map .float
  else if tag = some (coreTag "null") then if null? t then some .null else none
  else if plain && tag.isNone then ofPlain? t
  else some (.str t)

def ownTag? : Option Text → Option Text
  | some ['!'] => some ['!']
  | some ('!' :: name) => some name
  | _ => none

def wrap (tag : Option Text) (n : Node) : Node :=
  match ownTag? tag with
  | some name => .tagged name n
  | none => n

/-- A state of expanding aliases: how many more may be followed. -/
abbrev Expansion := StateT Nat Option

def followAlias (r : Tree.Reading) : Tree → Expansion Tree
  | .alias number => do
    match ← get with
    | 0 => StateT.lift none
    | left + 1 => set left; StateT.lift (r.target? number)
  | t => return t

def ofTree (r : Tree.Reading) : Nat → Tree → Expansion Node
  | depth, t => do
    match ← followAlias r t with
    | .scalar tag plain text =>
      match ownTag? tag with
      | some name =>
        match ofScalar? none plain text with
        | some n => return .tagged name n
        | none => StateT.lift none
      | none => StateT.lift (ofScalar? tag plain text)
    | .seq tag items =>
      match depth with
      | 0 => StateT.lift none
      | depth + 1 => return wrap tag (.seq (← items.mapM (ofTree r depth)))
    | .map tag entries =>
      match depth with
      | 0 => StateT.lift none
      | depth + 1 =>
        let entries ← entries.foldlM (fun done (k, v) => do
          let k ← ofTree r depth k
          if done.any fun (e : Node × Node) => same e.1 k then StateT.lift none
          let v ← ofTree r depth v
          return done ++ [(k, v)]) []
        return wrap tag (.map entries)
    | .alias _ => StateT.lift none

def deepest : Nat := 128

def ofText? (t : Text) : Option Node := do
  let (tree, reading) ← Tree.ofText? t
  match tree with
  | none => return .null
  | some tree =>
    let (n, _) ← (ofTree reading deepest tree).run (100 * reading.events)
    return n

end Node

def decode? (t : Text) : Option Value := (Node.ofText? t).map Node.toValue

end Docspec.Yaml
