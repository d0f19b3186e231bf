import ArchDiagram.Path
import ArchDiagram.OrderedMap
import ArchDiagram.Text.Quoted

/-!
Files and directories as a tree, with a current directory. Paths are followed component by
component: every component but the last leads through a directory, and a double dot leads back.
Names have a greatest length, and a null character is part of no name.
-/

namespace ArchDiagram

inductive FileNode
  | file (bytes : List UInt8)
  | directory (entries : List (String × FileNode))
deriving Repr

namespace FileNode

def isFile : FileNode → Bool
  | file _ => true
  | directory _ => false

def entries : FileNode → List (String × FileNode)
  | file _ => []
  | directory entries => entries

/-- Puts a node at a place below a directory, making the directories on the way. -/
def put (new : FileNode) : List String → FileNode → FileNode
  | [], _ => new
  | name :: rest, node =>
    let old := (node.entries.lookup name).getD (directory [])
    directory (OrderedMap.putEntry name (put new rest old) node.entries)

mutual

/-- The places of the directories in a tree, the tree itself included. -/
def directories : FileNode → List (List String)
  | .file _ => []
  | .directory entries => [] :: entriesDirectories entries

def entriesDirectories : List (String × FileNode) → List (List String)
  | [] => []
  | entry :: rest => entryDirectories entry ++ entriesDirectories rest

def entryDirectories : String × FileNode → List (List String)
  | (name, node) => (directories node).map (name :: ·)

end

end FileNode

structure Disk where
  root : FileNode
  location : List String
deriving Repr

namespace Disk

/-- Why a path cannot be used. A null character is noticed when a file is opened, or when a path is
resolved. -/
inductive Failure
  | notFound
  | notADirectory
  | isADirectory
  | nameTooLong
  | nullCharacter
deriving DecidableEq, Repr

def Failure.message (failure : Failure) (path : Path) : String :=
  let shown := ": " ++ Text.quoted path.text
  match failure with
  | notFound => "[Errno 2] No such file or directory" ++ shown
  | notADirectory => "[Errno 20] Not a directory" ++ shown
  | isADirectory => "[Errno 21] Is a directory" ++ shown
  | nameTooLong => "[Errno 36] File name too long" ++ shown
  | nullCharacter => "embedded null byte"

structure Unusable where
  failure : Failure
  path : Path
deriving DecidableEq, Repr

def Unusable.message (unusable : Unusable) : String := unusable.failure.message unusable.path

def nameLimit : Nat := 255

def pathLimit : Nat := 4095

/-- Follows components from a node whose ancestors are given, the nearest first. Above the root is
the root. -/
def walk : (ancestors : List FileNode) → FileNode → List String → Except Failure FileNode
  | _, node, [] => .ok node
  | _, .file _, _ :: _ => .error .notADirectory
  | ancestors, .directory entries, name :: rest =>
    if name = ".." then
      match ancestors with
      -- The root is its own parent.
      | [] => walk [] (.directory entries) rest
      | parent :: above => walk above parent rest
    else if nameLimit < name.utf8ByteSize then .error .nameTooLong
    else match entries.lookup name with
      | none => .error .notFound
      | some node => walk (.directory entries :: ancestors) node rest

def absoluteParts (disk : Disk) (path : Path) : List String :=
  if path.isAbsolute then path.parts else disk.location ++ path.parts

def hasNull (path : Path) : Bool := path.parts.any (·.toList.contains '\x00')

def node? (disk : Disk) (path : Path) : Except Failure FileNode :=
  if hasNull path then .error .nullCharacter
  else if pathLimit < path.text.utf8ByteSize then .error .nameTooLong
  else walk [] disk.root (disk.absoluteParts path)

/-- What is at a path, if there is anything. Only a path that is too long cannot be asked about. -/
def find? (disk : Disk) (path : Path) : Except Unusable (Option FileNode) :=
  match disk.node? path with
  | .ok node => .ok (some node)
  | .error .nameTooLong => .error ⟨.nameTooLong, path⟩
  | .error _ => .ok none

def pathExists (disk : Disk) (path : Path) : Except Unusable Bool :=
  (disk.find? path).map Option.isSome

def isFile (disk : Disk) (path : Path) : Except Unusable Bool :=
  (disk.find? path).map (·.any FileNode.isFile)

def isDirectory (disk : Disk) (path : Path) : Except Unusable Bool :=
  (disk.find? path).map (·.any (!·.isFile))

/-- The entries of the directory at a path; none if there is no directory. -/
def entries (disk : Disk) (path : Path) : Except Unusable (List (String × FileNode)) :=
  (disk.find? path).map fun found? => (found?.map FileNode.entries).getD []

/-- The directories at a path and below it. Each of them is asked about. -/
def directories (disk : Disk) (path : Path) : Except Unusable (List Path) := do
  let places := ((← disk.find? path).map FileNode.directories).getD []
  (places.map path.append).filterM disk.isDirectory

def resolve (disk : Disk) (path : Path) : Except Unusable Path :=
  if hasNull path then .error ⟨.nullCharacter, path⟩
  else .ok ⟨"/", Path.resolveParts [] (disk.absoluteParts path)⟩

def read (disk : Disk) (path : Path) : Except Failure (List UInt8) :=
  match disk.node? path with
  | .ok (.file bytes) => .ok bytes
  | .ok (.directory _) => .error .isADirectory
  | .error failure => .error failure

/-- Writes a new file at a resolved path whose directory exists. -/
def create (disk : Disk) (path : Path) (bytes : List UInt8) : Except Unusable Disk :=
  match disk.node? path.parent with
  | .ok (.directory _) => .ok { disk with root := (FileNode.file bytes).put path.parts disk.root }
  | .ok (.file _) => .error ⟨.notADirectory, path⟩
  | .error failure => .error ⟨failure, path⟩

end Disk

end ArchDiagram
