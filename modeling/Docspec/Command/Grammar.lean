import Docspec.Command.Argument
import Docspec.Placeholder.Name

set_option autoImplicit false

namespace Docspec

structure LineGrammar where
  groups? : Text → Option (List (Option Text))
  /-- Absent groups count as empty ones, so that the number of arguments is fixed. -/
  isPadded : Bool

namespace LineGrammar

/-- The arguments of a line: its groups up to the first absent one, without blanks at their ends. A
line that does not fit has no arguments. -/
def split (g : LineGrammar) (line : Text) : List Argument :=
  match g.groups? line with
  | none => []
  | some groups =>
    let present := if g.isPadded then groups else groups.takeWhile (·.isSome)
    present.map fun t => Argument.ofLine (Text.trim (t.getD []))

/-- A variable name and the rest of the line after blanks. A rest of two blanks or more counts as
an empty one. -/
def setGroups? (line : Text) : Option (List (Option Text)) :=
  let t := Text.trimStart line
  match t with
  | [] => none
  | c :: _ =>
    if Placeholder.isNameStart c then
      let name := t.takeWhile Placeholder.isVariableChar
      let rest := t.dropWhile Placeholder.isVariableChar
      match Text.trimmed? rest with
      | none => some [some name, if rest.length < 2 then none else some []]
      | some value =>
        if rest.head?.all Text.isBlank then some [some name, some value] else none
    else none

def printGroups? (line : Text) : Option (List (Option Text)) :=
  let (before, after) :=
    match Text.splitOnce (· = '>') line with
    | some (a, b) => (a, some b)
    | none => (line, none)
  (Text.trimmed? before).map fun value => [some value, after.map Text.trim]

def ofSet : LineGrammar := ⟨setGroups?, false⟩

def ofPrint : LineGrammar := ⟨printGroups?, true⟩

end LineGrammar

end Docspec
