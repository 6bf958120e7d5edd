import Docspec.Text.Position

set_option autoImplicit false

namespace Docspec

inductive MarkerError
  | empty
  | equal (marker : Text)
  | backtick
deriving DecidableEq

def MarkerError.message : MarkerError → Text
  | .empty => "markers must not be empty"
  | .equal m => "open and close markers are both `".toList ++ m ++ "`".toList
  | .backtick => "markers must not contain backticks"

namespace Placeholder

inductive Error
  | malformed (invalid : Text) (place : Text.Position)
  | unknownFilter (name : Text)
  | unknownFunction (name : Text)
  | filterFailed (name message : Text)
  | functionFailed (name message : Text)
  | badName (name : Text)
  | badMarkers (cause : MarkerError)
deriving DecidableEq

def Error.message : Error → Text
  | .malformed invalid place =>
    "invalid placeholder `".toList ++ invalid ++ "` on line ".toList ++ Text.ofNat place.line ++
      ", at column ".toList ++ Text.ofNat place.column
  | .unknownFilter name => "filter `".toList ++ name ++ "` not found".toList
  | .unknownFunction name => "call to unknown function `".toList ++ name ++ "`".toList
  | .filterFailed name message => "filter `".toList ++ name ++ "`: ".toList ++ message
  | .functionFailed name message => "function `".toList ++ name ++ "`: ".toList ++ message
  | .badName name => "`".toList ++ name ++ "` is not a valid filter or function name".toList
  | .badMarkers cause => "invalid markers: ".toList ++ cause.message

end Placeholder

end Docspec
