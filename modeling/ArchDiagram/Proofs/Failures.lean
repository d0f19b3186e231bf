import ArchDiagram.Proofs.CheckCommand
import ArchDiagram.Proofs.Selection

/-!
When a check fails. All but a few of the things that can be wrong are reported: what is not reported
lies in a settings file that cannot be decoded or whose document has no value, in a pattern that is
not accepted or for which the stack has no room, in a path that is too long, or in an integer of a
source that has too many digits.
-/

namespace ArchDiagram.Command

section Breaks

variable (environment : Environment) (disk : Disk) (given? : Option Path)

/-- A settings file that is neither loaded nor rejected. -/
inductive Unloadable (file : Path) : Prop
  | nullCharacter : disk.readText file = .error (.unusable .nullCharacter) → Unloadable file
  | undecodable {fault : Text.Utf8Fault} : disk.readText file = .error (.undecodable fault) →
      Unloadable file
  | noValue {text : String} {fault : Yaml.Fault} : disk.readText file = .ok text →
      environment.loader.load text = .error fault →
      (∀ explanation?, fault ≠ .malformed explanation?) → Unloadable file
  | keyTooLong {text : String} {document : environment.loader.Value} :
      disk.readText file = .ok text → environment.loader.load text = .ok document →
      Settings.HasLongKey environment.loader document → Unloadable file

/-- The search for a settings file, from a directory upwards, comes to a place for which the file
system has no answer. -/
def Astray (directory : Path) : Prop :=
  ∃ parts, parts <+: directory.parts ∧
    ¬ Pattern.Answers disk (settingsIn directory.root parts) ∧
    ∀ closer, parts <+: closer → closer <+: directory.parts → closer ≠ parts →
      disk.isFile (settingsIn directory.root closer) = .ok false

inductive Searched (path : Path) : Path → Prop
  | atDirectory {directory : Path} : disk.isDirectory path = .ok true →
      disk.resolve path = .ok directory → Searched path directory
  | besideFile {directory : Path} : disk.isDirectory path = .ok false →
      disk.resolve path.parent = .ok directory → Searched path directory

/-- Why a check breaks off at a path. -/
inductive Breaks (path : Path) : Prop
  | tooLong : ¬ Pattern.Answers disk path → Breaks path
  | astray {directory : Path} : disk.pathExists path = .ok true → given? = none →
      Searched disk path directory → Astray disk directory → Breaks path
  | unloadable {file : Path} : disk.pathExists path = .ok true →
      Governs disk given? path (some file) → Unloadable environment disk file → Breaks path
  | noPattern {settings : WideSettings} {text : Text.CodePoints} :
      disk.isDirectory path = .ok true → InForce environment disk given? path settings →
      text ∈ settings.includePatterns → Pattern.Unacceptable text → Breaks path
  | unanswered {settings : WideSettings} {text : Text.CodePoints} {pattern : Pattern} :
      disk.isDirectory path = .ok true → InForce environment disk given? path settings →
      text ∈ settings.includePatterns → Pattern.ofCodes? text = .ok pattern →
      ¬ (Pattern.Answered disk pattern.onlyDirectories pattern.parts path ∧
        ∀ found, Pattern.Comes disk pattern.onlyDirectories pattern.parts path found →
          Pattern.Answers disk found) → Breaks path
  | noRoom {settings : WideSettings} {text : Text.CodePoints} :
      disk.isDirectory path = .ok true → InForce environment disk given? path settings →
      text ∈ settings.includePatterns → environment.follows disk path text = false → Breaks path

end Breaks

section Load

variable {environment : Environment} {disk : Disk}

theorem Searched.unique {path directory other : Path} (searched : Searched disk path directory)
    (again : Searched disk path other) : directory = other := by
  cases searched with
  | atDirectory isDirectory resolved =>
    cases again with
    | atDirectory _ resolved' => exact Except.ok.inj (resolved.symm.trans resolved')
    | besideFile isFile => cases isDirectory.symm.trans isFile
  | besideFile isFile resolved =>
    cases again with
    | atDirectory isDirectory => cases isDirectory.symm.trans isFile
    | besideFile _ resolved' => exact Except.ok.inj (resolved.symm.trans resolved')

end Load

section Find

variable {environment : Environment} {disk : Disk} {given? : Option Path}

section Room

variable {path : Path} {node : FileNode} {settings : WideSettings}

end Room

theorem Breaks.pathExists {path : Path} (breaks : Breaks environment disk given? path)
    (answers : Pattern.Answers disk path) : disk.pathExists path = .ok true := by
  cases breaks with
  | tooLong off => exact absurd answers off
  | astray exists_ | unloadable exists_ => exact exists_
  | noPattern isDirectory | unanswered isDirectory | noRoom isDirectory =>
    obtain ⟨node, there, -⟩ := Disk.isDirectory_iff.1 isDirectory
    exact Disk.pathExists_iff.2 ⟨node, there⟩

end Find

section Sources

variable {environment : Environment} {disk : Disk}

end Sources

end ArchDiagram.Command
