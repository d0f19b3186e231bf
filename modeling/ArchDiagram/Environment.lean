import ArchDiagram.Path.Pattern
import ArchDiagram.Yaml.Document

/-!
What the program relies on and does not decide itself.
-/

namespace ArchDiagram

/-- A loader of settings files, and whether the stack has room for following a pattern below a
directory of a disk. -/
structure Environment where
  loader : Yaml.Loader
  follows : Disk → Path → Text.CodePoints → Bool

namespace Environment

def levelsBelow (disk : Disk) (path : Path) : Nat :=
  match disk.directories path with
  | .ok directories =>
    (directories.map (·.parts.length - path.parts.length)).foldl max 0
  | .error _ => 0

/-- The calls that following a pattern takes: four for each component, and one for each level of
directories if the pattern goes through all of them. -/
def callsFor (disk : Disk) (path : Path) (pattern : Text.CodePoints) : Nat :=
  let components := Pattern.components pattern
  4 * components.length +
    if components.any (· = Text.codes "**") then levelsBelow disk path else 0

/-- The room that a stack of a thousand calls has left. -/
def stackRoom : Nat := 970

def standard : Environment where
  loader := .standard
  follows disk path pattern := callsFor disk path pattern ≤ stackRoom

end Environment

end ArchDiagram
