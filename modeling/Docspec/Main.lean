import Docspec.CommandLine.Program
import Docspec.Markdown
import Std.Time.DateTime.Timestamp

set_option autoImplicit false

namespace Docspec.CommandLine

def FileError.ofSystem (e : IO.Error) : FileError :=
  match e with
  | .noFileOrDirectory .. => .notFound
  | .inappropriateType _ code _ => if code = 20 then .notDirectory else .isDirectory
  | e => .other (toString e).toList

def readSystemFile (path : Text) : IO (Except FileError Text) := do
  try return .ok (← IO.FS.readFile (String.ofList path)).toList
  catch e => return .error (FileError.ofSystem e)

def appendSystemFile (path more : Text) : IO Bool := do
  try
    let file ← IO.FS.Handle.mk (String.ofList path) .append
    file.putStr (String.ofList more)
    return true
  catch _ => return false

def complainToSystem (t : Text) : IO Unit := do (← IO.getStderr).putStrLn (String.ofList t)

def systemConfigPlaces : IO (List Text) := do
  let below (dir : Option String) (path : String) : List Text :=
    (dir.map fun d => (d ++ "/" ++ path).toList).toList
  let home ← IO.getEnv "HOME"
  let shared :=
    match ← IO.getEnv "XDG_CONFIG_HOME" with
    | some dir => below (some dir) "urobor/uroborrc"
    | none => below home ".config/urobor/uroborrc"
  return shared ++ below home ".uroborrc" ++ ["./.uroborrc".toList]

def systemMoment : IO Placeholder.Moment := do
  let now ← Std.Time.Timestamp.now
  return ⟨now.toSecondsSinceUnixEpoch.toInt.toNat, ← IO.rand 0 (Nat.pow 2 128 - 1)⟩

def systemHost : IO (Host IO) := do
  return {
    read := readSystemFile
    isThere := fun path => do
      match ← readSystemFile path with
      | .ok _ | .error .isDirectory => return true
      | .error _ => return false
    append := appendSystemFile
    say := fun t => IO.print (String.ofList t)
    complain := complainToSystem
    warn := fun t => complainToSystem (" WARN ".toList ++ t)
    configPlaces := ← systemConfigPlaces
    moment := ← systemMoment
    events := Markdown.events
    yamlFault := fun _ => "the text is not a YAML document".toList
  }

end Docspec.CommandLine

def main (args : List String) : IO UInt32 := do
  let host ← Docspec.CommandLine.systemHost
  let code ← Docspec.CommandLine.Program.run host (args.map String.toList)
  return code.toUInt32
