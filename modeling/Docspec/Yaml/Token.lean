import Docspec.Text.Basic

set_option autoImplicit false

namespace Docspec.Yaml

inductive Token
  | versionDirective (major minor : Nat)
  | tagDirective (handle expansion : Text)
  | documentStart
  | documentEnd
  | blockSequenceStart
  | blockMappingStart
  | blockEnd
  | flowSequenceStart
  | flowSequenceEnd
  | flowMappingStart
  | flowMappingEnd
  | blockEntry
  | flowEntry
  | key
  | value
  | alias (name : Text)
  | anchor (name : Text)
  | tag (handle suffix : Text)
  /-- `plain` tells the texts without quotes, whose content decides their type. -/
  | scalar (text : Text) (plain : Bool)
  | streamEnd
deriving DecidableEq

end Docspec.Yaml
