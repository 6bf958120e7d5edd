import Docspec.Text.Basic

set_option autoImplicit false

namespace Docspec.CommandLine

inductive ConfigChoice
  | search
  | skip
  | file (path : Text)
deriving DecidableEq

structure Options where
  debug : Bool
  quiet : Bool
  config : ConfigChoice
  defines : List (Text × Text)
  documents : List Text
deriving DecidableEq

inductive UsageError
  | defineMissing
  | defineMalformed (word : Text)
  | unknownOption (c : Char)
  | noDocument
deriving DecidableEq

def UsageError.message : UsageError → Text
  | .defineMissing => "-D requires a name=value argument"
  | .defineMalformed word => "-D expects name=value, got `".toList ++ word ++ "`".toList
  | .unknownOption c => "unknown option: -".toList ++ [c]
  | .noDocument => "no document given"

def usage : Text := "Usage: urobor [-dq] [-f[<file>]] [-D<name>=<value>]... <document.md>..."

namespace Options

def none : Options := ⟨false, false, .search, [], []⟩

def readDefine (word : Text) : Except UsageError (Text × Text) :=
  match Text.splitOnce (· = '=') word with
  | some (name, value) =>
    if (Text.trim name).isEmpty then .error (.defineMalformed word)
    else .ok (Text.trim name, value)
  | Option.none => .error (.defineMalformed word)

def addDefine (word : Text) (o : Options) : Except UsageError Options :=
  (readDefine word).map fun d => { o with defines := o.defines ++ [d] }

/-- Reads the letters of one word of switches. The answer tells whether the next word is a
definition. -/
def readSwitches (o : Options) : Text → Except UsageError (Options × Bool)
  | [] => .ok (o, false)
  | 'd' :: t => readSwitches { o with debug := true } t
  | 'q' :: t => readSwitches { o with quiet := true } t
  | ['f'] => .ok ({ o with config := .skip }, false)
  | 'f' :: file => .ok ({ o with config := .file file }, false)
  | ['D'] => .ok (o, true)
  | 'D' :: word => (o.addDefine word).map fun o => (o, false)
  | c :: _ => .error (.unknownOption c)

def readFrom (o : Options) (awaiting : Bool) : List Text → Except UsageError Options
  | [] =>
    if awaiting then .error .defineMissing
    else if o.documents.isEmpty then .error .noDocument
    else .ok o
  | word :: more =>
    if awaiting then (o.addDefine word).bind fun o => readFrom o false more
    else
      match word with
      | ['-', '-'] => readFrom { o with documents := o.documents ++ more } false []
      | '-' :: c :: t =>
        (o.readSwitches (c :: t)).bind fun (o, awaiting) => readFrom o awaiting more
      | _ => readFrom { o with documents := o.documents ++ [word] } false more

def read (argv : List Text) : Except UsageError Options := readFrom none false argv

end Options

end Docspec.CommandLine
