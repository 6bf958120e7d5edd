import Docspec.Text.Basic

set_option autoImplicit false

namespace Docspec.LogLevel

def names : List Text :=
  ["trace".toList, "debug".toList, "info".toList, "warn".toList, "error".toList, "off".toList]

/-- The level of choice: of the two switches the first one counts, and both count more than the
configured level. -/
def choose (debug quiet : Bool) (configured : Option Text) : Text :=
  if debug then "debug" else if quiet then "error" else configured.getD "warn"

def admitsWarnings (level : Text) : Bool := (names.take 4).contains level

end Docspec.LogLevel
