import Docspec.CommandLine.Program

set_option autoImplicit false

namespace Docspec.CommandLine

/-- Files and directories by the names that lead to them from the root. -/
structure FileTree where
  directory : List Text
  folders : List (List Text)
  files : List (List Text × Text)

namespace FileTree

/-- The device that is always empty and takes everything. -/
def null : List Text := ["dev".toList, "null".toList]

def file? (t : FileTree) (place : List Text) : Option Text :=
  if place = null then some [] else (t.files.find? fun f => f.1 == place).map Prod.snd

def directories (t : FileTree) : List (List Text) :=
  t.directory :: null.dropLast :: (t.folders ++ t.files.map fun f => f.1.dropLast)

def isDirectory (t : FileTree) (place : List Text) : Bool :=
  t.directories.any fun d => place.isPrefixOf d

def isStill (name : Text) : Bool := name.isEmpty || name == ['.']

/-- Follows names from a directory. All but the last must be there. -/
def follow (t : FileTree) (place : List Text) : List Text → Except FileError (List Text)
  | [] => .ok place
  | name :: more =>
    if isStill name then follow t place more
    else if name == ['.', '.'] then follow t place.dropLast more
    else if more.isEmpty || t.isDirectory (place ++ [name]) then follow t (place ++ [name]) more
    else if (t.file? (place ++ [name])).isSome then .error .notDirectory
    else .error .notFound

def base (t : FileTree) (path : Text) : List Text :=
  if path.head? = some '/' then [] else t.directory

def place (t : FileTree) (path : Text) : Except FileError (List Text) :=
  if path.isEmpty then .error .notFound
  else t.follow (t.base path) (Text.splitAll '/' path)

def read (t : FileTree) (path : Text) : Except FileError Text := do
  let place ← t.place path
  if t.isDirectory place then .error .isDirectory
  else
    match t.file? place with
    | some content => .ok content
    | none => .error .notFound

def isThere (t : FileTree) (path : Text) : Bool :=
  match t.place path with
  | .ok place => t.isDirectory place || (t.file? place).isSome
  | .error _ => false

def put (t : FileTree) (place : List Text) (content : Text) : FileTree :=
  { t with files := (place, content) :: t.files.filter fun f => f.1 != place }

def append (t : FileTree) (path more : Text) : Bool × FileTree :=
  match t.place path with
  | .ok place =>
    if t.isDirectory place then (false, t)
    else (true, t.put place ((t.file? place).getD [] ++ more))
  | .error _ => (false, t)

def machine (around : Surroundings) : Machine FileTree := { around with read, isThere, append }

end FileTree

end Docspec.CommandLine
