import ArchDiagram.Path.Pattern
import ArchDiagram.Settings

/-!
Finding files: the sources that the settings of a project select, and the settings file that is in
force at a directory.
-/

namespace ArchDiagram.Discovery

def isExcluded (excludedNames : List Text.CodePoints) (root path : Path) : Bool :=
  (path.parts.drop root.parts.length).dropLast.any (Text.codes · ∈ excludedNames)

def dropRepeats {α : Type} [DecidableEq α] : List α → List α
  | [] => []
  | x :: rest =>
    match dropRepeats rest with
    | [] => [x]
    | y :: more => if x = y then y :: more else x :: y :: more

def sorted (paths : List Path) : List Path := dropRepeats (paths.mergeSort Path.le)

inductive Failure
  | pattern (fault : Pattern.Fault)
  | unusable (fault : Disk.Unusable)
deriving DecidableEq, Repr

def isSource (disk : Disk) (excludedNames : List Text.CodePoints) (root path : Path) :
    Except Disk.Unusable Bool :=
  (disk.isFile path).map (· && !isExcluded excludedNames root path)

def selected (disk : Disk) (excludedNames : List Text.CodePoints) (root : Path)
    (text : Text.CodePoints) : Except Failure (List Path) := do
  let pattern ← (Pattern.ofCodes? text).mapError .pattern
  let paths ← (pattern.paths disk root).mapError .unusable
  (paths.filterM (isSource disk excludedNames root)).mapError .unusable

/-- The source files at a root. A file is its own source; in a directory the patterns select
them. -/
def sources (disk : Disk) (settings : WideSettings) (root : Path) :
    Except Failure (List Path) := do
  if ← (disk.isFile root).mapError .unusable then
    return [root]
  else
    let found ← settings.includePatterns.mapM (selected disk settings.excludedNames root)
    return sorted found.flatten

/-- The settings file in a directory or the nearest directory above it. -/
def settingsFile? (disk : Disk) (directory : Path) : Except Disk.Unusable (Option Path) := do
  let directory ← disk.resolve directory
  (directory.upwards.map (·.child Settings.fileName)).findM? disk.isFile

end ArchDiagram.Discovery
