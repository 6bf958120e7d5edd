import Docspec.Bindings
import Docspec.Yaml.Scanner

set_option autoImplicit false

namespace Docspec.Yaml

inductive Tree
  | scalar (tag : Option Text) (plain : Bool) (text : Text)
  | seq (tag : Option Text) (items : List Tree)
  | map (tag : Option Text) (entries : List (Tree × Tree))
  | alias (number : Nat)

namespace Tree

def missing : Tree := .scalar none true []

/-- What the reading of a document carries along. A name is bound to a number at the start of its
node; the number of an anchor is the count of names before it, so that binding a name anew can give
a number out twice. The last node to take a number keeps it. -/
structure Reading where
  tokens : List Token
  handles : List (Text × Text)
  names : Bindings Nat
  /-- Which node, in order of their starts, owns a number; the latest first. -/
  owners : List (Nat × Nat)
  nodes : List (Nat × Tree)
  anchors : Nat
  /-- Scalars and aliases count once, collections twice. -/
  events : Nat

abbrev Reader := StateT Reading Option

namespace Reader

def peek : Reader Token := do
  match (← get).tokens with
  | t :: _ => return t
  | [] => StateT.lift none

def skip : Reader Unit := modify fun r => { r with tokens := r.tokens.tail }

def fail {α : Type} : Reader α := StateT.lift none

def count (n : Nat) : Reader Unit := modify fun r => { r with events := r.events + n }

def bindAnchor (name : Text) : Reader Nat := do
  let r ← get
  let number := r.names.length
  set { r with
    names := Bindings.insert name number r.names
    owners := (number, r.anchors) :: r.owners
    anchors := r.anchors + 1 }
  return r.anchors

def keep (place : Option Nat) (t : Tree) : Reader Tree := do
  match place with
  | some n => modify fun r => { r with nodes := (n, t) :: r.nodes }
  | none => pure ()
  return t

def resolveTag (handle suffix : Text) : Reader Text := do
  if handle.isEmpty then return suffix
  match Bindings.get? handle (← get).handles with
  | some expansion => return expansion ++ suffix
  | none => fail

def properties : Reader (Option Nat × Option Text) := do
  let anchor : Reader (Option Nat) := do
    match ← peek with
    | .anchor name => skip; return some (← bindAnchor name)
    | _ => return none
  let tag : Reader (Option Text) := do
    match ← peek with
    | .tag handle suffix => skip; return some (← resolveTag handle suffix)
    | _ => return none
  match ← anchor with
  | some n => return (some n, ← tag)
  | none =>
    let t ← tag
    match t with
    | some t => return (← anchor, some t)
    | none => return (none, none)

def emptyNode : Reader Tree := do
  count 1
  return missing

end Reader

open Reader

def endsBlockItem : Token → Bool
  | .blockEntry | .blockEnd => true
  | _ => false

def endsIndentlessItem : Token → Bool
  | .blockEntry | .key | .value | .blockEnd => true
  | _ => false

def endsMappingPart : Token → Bool
  | .key | .value | .blockEnd => true
  | _ => false

def endsFlowPart : Token → Bool
  | .value | .flowEntry | .flowSequenceEnd | .flowMappingEnd => true
  | _ => false

mutual

def node (block indentless : Bool) : Nat → Reader Tree
  | 0 => fail
  | fuel + 1 => do
    match ← peek with
    | .alias name =>
      skip
      count 1
      match Bindings.get? name (← get).names with
      | some number => return .alias number
      | none => fail
    | _ =>
      let (place, tag) ← properties
      match ← peek with
      | .scalar text plain =>
        skip
        count 1
        keep place (.scalar (tag.filter (· ≠ ['!'])) plain text)
      | .flowSequenceStart =>
        skip
        count 2
        keep place (.seq tag (← flowItems true fuel))
      | .flowMappingStart =>
        skip
        count 2
        keep place (.map tag (← flowEntries true fuel))
      | .blockSequenceStart =>
        if block then
          skip
          count 2
          keep place (.seq tag (← blockItems fuel))
        else fail
      | .blockMappingStart =>
        if block then
          skip
          count 2
          keep place (.map tag (← blockEntries fuel))
        else fail
      | .blockEntry =>
        if indentless then
          count 2
          keep place (.seq tag (← indentlessItems fuel))
        else if place.isSome || tag.isSome then
          count 1
          keep place (.scalar tag true [])
        else fail
      | _ =>
        if place.isSome || tag.isSome then
          count 1
          keep place (.scalar tag true [])
        else fail

def nodeUnless (ends : Token → Bool) (block indentless : Bool) : Nat → Reader Tree
  | 0 => fail
  | fuel + 1 => do
    if ends (← peek) then emptyNode else node block indentless fuel

def blockItems : Nat → Reader (List Tree)
  | 0 => fail
  | fuel + 1 => do
    match ← peek with
    | .blockEntry =>
      skip
      let item ← nodeUnless endsBlockItem true false fuel
      return item :: (← blockItems fuel)
    | .blockEnd => skip; return []
    | _ => fail

def indentlessItems : Nat → Reader (List Tree)
  | 0 => fail
  | fuel + 1 => do
    match ← peek with
    | .blockEntry =>
      skip
      let item ← nodeUnless endsIndentlessItem true false fuel
      return item :: (← indentlessItems fuel)
    | _ => return []

def blockEntries : Nat → Reader (List (Tree × Tree))
  | 0 => fail
  | fuel + 1 => do
    match ← peek with
    | .key =>
      skip
      let k ← nodeUnless endsMappingPart true true fuel
      let v ← mappingValue fuel
      return (k, v) :: (← blockEntries fuel)
    | .blockEnd => skip; return []
    | _ => fail

def mappingValue : Nat → Reader Tree
  | 0 => fail
  | fuel + 1 => do
    match ← peek with
    | .value => skip; nodeUnless endsMappingPart true true fuel
    | _ => emptyNode

def flowItems (first : Bool) : Nat → Reader (List Tree)
  | 0 => fail
  | fuel + 1 => do
    match ← peek with
    | .flowSequenceEnd => skip; return []
    | t =>
      if !first then
        match t with
        | .flowEntry => skip
        | _ => fail
      match ← peek with
      | .flowSequenceEnd => skip; return []
      | .key =>
        skip
        count 2
        let k ← pairKey fuel
        let v ← flowValue fuel
        return .map none [(k, v)] :: (← flowItems false fuel)
      | _ =>
        let item ← node false false fuel
        return item :: (← flowItems false fuel)

def pairKey : Nat → Reader Tree
  | 0 => fail
  | fuel + 1 => do
    match ← peek with
    | .value | .flowEntry | .flowSequenceEnd => skip; emptyNode
    | _ => node false false fuel

def flowValue : Nat → Reader Tree
  | 0 => fail
  | fuel + 1 => do
    match ← peek with
    | .value =>
      skip
      match ← peek with
      | .flowEntry | .flowSequenceEnd | .flowMappingEnd => emptyNode
      | _ => node false false fuel
    | _ => emptyNode

def flowEntries (first : Bool) : Nat → Reader (List (Tree × Tree))
  | 0 => fail
  | fuel + 1 => do
    match ← peek with
    | .flowMappingEnd => skip; return []
    | t =>
      if !first then
        match t with
        | .flowEntry => skip
        | _ => fail
      match ← peek with
      | .flowMappingEnd => skip; return []
      | .key =>
        skip
        let k ← nodeUnless endsFlowPart false false fuel
        let v ← flowValue fuel
        return (k, v) :: (← flowEntries false fuel)
      | _ =>
        let k ← node false false fuel
        let v ← emptyNode
        return (k, v) :: (← flowEntries false fuel)

end

def directives (versionSeen : Bool) : Nat → Reader Unit
  | 0 => fail
  | fuel + 1 => do
    match ← peek with
    | .versionDirective major minor =>
      if versionSeen || major ≠ 1 || (minor ≠ 1 && minor ≠ 2) then fail
      else
        skip
        directives true fuel
    | .tagDirective handle expansion =>
      if Bindings.contains handle (← get).handles then fail
      else
        skip
        modify fun r => { r with handles := (handle, expansion) :: r.handles }
        directives versionSeen fuel
    | _ => return ()

def defaultHandles : List (Text × Text) :=
  [("!", "!"), ("!!", "tag:yaml.org,2002:")]

def addDefaultHandles : Reader Unit :=
  modify fun r => { r with handles := r.handles ++ defaultHandles }

def document (fuel : Nat) : Reader (Option Tree) := do
  match ← peek with
  | .streamEnd => return none
  | _ =>
    let before ← get
    directives false fuel
    let directed := (← get).tokens.length < before.tokens.length
    addDefaultHandles
    let explicit := (← peek) = .documentStart
    if directed && !explicit then fail
    if explicit then skip
    let tree ←
      match ← peek with
      | .versionDirective .. | .tagDirective .. | .documentStart | .streamEnd => emptyNode
      | .documentEnd => if explicit then emptyNode else fail
      | _ => node true false fuel
    endOfStream fuel
    return some tree
where
  endOfStream : Nat → Reader Unit
    | 0 => fail
    | fuel + 1 => do
      match ← peek with
      | .documentEnd => skip; endOfStream fuel
      | .streamEnd => return ()
      | _ => fail

def ofText? (t : Text) : Option (Option Tree × Reading) := do
  let tokens ← tokens? t
  (document (3 * tokens.length + 8)).run ⟨tokens, [], [], [], [], 0, 0⟩

def Reading.target? (r : Reading) (number : Nat) : Option Tree :=
  ((r.owners.find? fun o => o.1 == number).map Prod.snd).bind fun place =>
    (r.nodes.find? fun n => n.1 == place).map Prod.snd

end Tree

end Docspec.Yaml
