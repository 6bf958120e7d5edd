import Docspec.Placeholder.Body
import Docspec.Placeholder.Filter
import Docspec.Placeholder.Generator
import Docspec.Placeholder.Markers
import Docspec.Value

set_option autoImplicit false

namespace Docspec

open Placeholder

structure Engine where
  markers : Markers
  registry : Registry

namespace Placeholder.Registry

def builtin (m : Moment) : Registry where
  filters := Bindings.ofList builtinFilters
  functions := Bindings.ofList (builtinFunctions m)

def call (r : Registry) (identifier : Text) : Except Error Text :=
  let (name, rest) := (Text.splitOnce (· = '(') identifier).getD (identifier, [])
  let name := Text.trim name
  match r.function? name with
  | none => .error (.unknownFunction name)
  | some f => (f (Text.trimmed? rest.dropLast)).mapError fun m => .functionFailed name m

def applyFilter (r : Registry) (item value : Text) : Except Error Text :=
  let (name, argument) :=
    match Text.splitOnce Text.isBlank item with
    | some (name, rest) => (name, Text.trimmed? rest)
    | none => (item, none)
  match r.filter? name with
  | none => .error (.unknownFilter name)
  | some f => (f value argument).mapError fun m => .filterFailed name m

def applyFilters (r : Registry) : List Text → Text → Except Error Text
  | [], value => .ok value
  | item :: rest, value => (r.applyFilter item value).bind (applyFilters r rest)

end Placeholder.Registry

namespace Engine

def builtin (m : Moment) : Engine := ⟨.default, .builtin m⟩

/-- The text an identifier stands for: with a dot it is a path into maps, else a variable, else a
call. Whatever is missing is empty. -/
def resolve (e : Engine) (vars : Vars) (identifier : Text) : Except Error Text :=
  if '.' ∈ identifier then
    match Text.splitAll '.' identifier with
    | first :: path =>
      .ok (((Bindings.get? first vars).bind (Value.lookup path)).getD .null).display
    | [] => .ok []
  else
    match Bindings.get? identifier vars with
    | some v => .ok v.display
    | none => if identifier.getLast? = some ')' then e.registry.call identifier else .ok []

def expand (e : Engine) (template : Text) (vars : Vars) (offset : Nat) (b : Body) :
    Except Error Text :=
  if b.invalid ≠ [] then
    .error (.malformed b.invalid (Text.locate template (offset + b.invalidOffset)))
  else (e.resolve vars b.identifier).bind (e.registry.applyFilters b.filters)

/-- Fills in the rest of a working copy. `pending` is literal text before it that is still to be
written, `offset` the place of the rest in the template. -/
def fill (e : Engine) (template : Text) (vars : Vars) (pending : Text) (offset : Nat)
    (rest : Text) : Except Error Text :=
  match _h : e.markers.nextSpan? rest with
  | none => .ok (e.markers.unescape (pending ++ rest))
  | some s =>
    let bodyOffset := offset + Text.byteLength (s.before ++ e.markers.opening)
    let next := bodyOffset + Text.byteLength (s.body ++ e.markers.closing)
    match Body.parse? s.body with
    | none =>
      e.fill template vars
        (pending ++ s.before ++ e.markers.opening ++ s.body ++ e.markers.closing) next s.after
    | some b =>
      (e.expand template vars bodyOffset b).bind fun value =>
        (e.fill template vars [] next s.after).map fun tail =>
          e.markers.unescape (pending ++ s.before) ++ value ++ tail
termination_by rest.length
decreasing_by all_goals exact Markers.length_after_lt _h

def standInCode (c : Char) : Text :=
  "\\u\x7b".toList ++ Nat.toDigits 16 c.toNat ++ "\x7d".toList

def interpolate (e : Engine) (template : Text) (vars : Vars) : Except Error Text :=
  match template.span fun c => !Markers.isStandIn c with
  | (before, c :: _) =>
    .error (.malformed (standInCode c) (Text.locate template (Text.byteLength before)))
  | (_, []) => e.fill template vars [] 0 (e.markers.escape template)

end Engine

end Docspec
