import Docspec.Command.Argument
import Docspec.Config.Words
import Docspec.LogLevel

set_option autoImplicit false

namespace Docspec

inductive ConfigError
  | noDirective (line : Text)
  | unknownDirective (name : Text)
  | setWithoutArgument
  | setWithoutValue (name : Text)
  | setWithoutName
  | markersCount (actual : Nat)
  | markersRejected (cause : MarkerError)
  | levelCount (actual : Nat)
  | unknownLevel (level : Text)
deriving DecidableEq

def ConfigError.message : ConfigError → Text
  | .noDirective line => "expected a /directive, found `".toList ++ line ++ "`".toList
  | .unknownDirective name => "unknown directive `/".toList ++ name ++ "`".toList
  | .setWithoutArgument => "/set: requires an argument"
  | .setWithoutValue name => "/set: missing value for '".toList ++ name ++ "'".toList
  | .setWithoutName => "/set: variable name cannot be empty"
  | .markersCount n => "/markers: expected 2 arguments, got ".toList ++ Text.ofNat n
  | .markersRejected cause => "/markers: ".toList ++ (Placeholder.Error.badMarkers cause).message
  | .levelCount n => "/loglevel: expected 1 argument, got ".toList ++ Text.ofNat n
  | .unknownLevel level => "/loglevel: unknown level `".toList ++ level ++ "`".toList

structure Config where
  vars : Context
  /-- The markers, if they are not the default ones. -/
  markers : Option Markers
  logLevel : Option Text

namespace Config

def empty : Config := ⟨.empty, none, none⟩

/-- The literal a text spells, or else the text itself. It is never filled in. -/
def coerce (raw : Text) : Value := (Argument.literalOf? raw).getD (.str raw)

def define (name raw : Text) (c : Config) : Config :=
  { c with vars := c.vars.set name (coerce raw) }

def binding (words : List Text) : Except ConfigError (Text × Text) :=
  match words with
  | [] => .error .setWithoutArgument
  | first :: more =>
    match Text.splitOnce (· = '=') first with
    | some (name, value) => .ok (name, Text.joinWith [' '] (value :: more))
    | none =>
      match more with
      | [] => .error (.setWithoutValue first)
      | _ => .ok (first, Text.joinWith [' '] more)

def applySet (words : List Text) (c : Config) : Except ConfigError Config :=
  (binding words).bind fun (name, raw) =>
    if name.isEmpty then .error .setWithoutName else .ok (c.define name raw)

def applyMarkers (words : List Text) (c : Config) : Except ConfigError Config :=
  match words with
  | [opening, closing] =>
    match Markers.ofPair opening closing with
    | .ok m => .ok { c with markers := some m }
    | .error e => .error (.markersRejected e)
  | _ => .error (.markersCount words.length)

def applyLevel (words : List Text) (c : Config) : Except ConfigError Config :=
  match words with
  | [word] =>
    let level := Text.asciiLower word
    if LogLevel.names.contains level then .ok { c with logLevel := some level }
    else .error (.unknownLevel level)
  | _ => .error (.levelCount words.length)

def isSilent (line : Text) : Bool := line.isEmpty || line.head? == some ';'

def applyLine (line : Text) (c : Config) : Except ConfigError Config :=
  if isSilent line then .ok c
  else
    match line with
    | '/' :: rest =>
      let (name, arguments) := (Text.splitOnce Text.isAsciiBlank rest).getD (rest, [])
      let words := splitWords (Text.trim arguments)
      if name = "set".toList then c.applySet words
      else if name = "markers".toList then c.applyMarkers words
      else if name = "loglevel".toList then c.applyLevel words
      else .error (.unknownDirective name)
    | _ => .error (.noDirective line)

structure Located where
  line : Nat
  cause : ConfigError
deriving DecidableEq

def Located.message (e : Located) : Text :=
  "line ".toList ++ Text.ofNat e.line ++ ": ".toList ++ e.cause.message

def applyLines : Nat → List Text → Config → Config × List Located
  | _, [], c => (c, [])
  | n, line :: more, c =>
    match c.applyLine (Text.trim line) with
    | .ok c' => applyLines (n + 1) more c'
    | .error cause =>
      let (last, errors) := applyLines (n + 1) more c
      (last, ⟨n, cause⟩ :: errors)

def ofText (t : Text) : Config × List Located := applyLines 1 (Text.splitAll '\n' t) empty

def engine (c : Config) (r : Placeholder.Registry) : Engine := ⟨c.markers.getD .default, r⟩

/-- The engine of a configuration, whose markers are checked once more. -/
def checkedEngine (c : Config) (r : Placeholder.Registry) : Except Placeholder.Error Engine :=
  match c.markers with
  | some m =>
    match Markers.ofPair m.opening m.closing with
    | .ok m => .ok ⟨m, r⟩
    | .error cause => .error (.badMarkers cause)
  | none => .ok ⟨.default, r⟩

theorem checkedEngine_eq (c : Config) (r : Placeholder.Registry) :
    c.checkedEngine r = .ok (c.engine r) := by
  rw [checkedEngine, engine]
  cases c.markers with
  | none => rfl
  | some m =>
    simp only [Markers.ofPair_self]
    rfl

end Config

end Docspec
