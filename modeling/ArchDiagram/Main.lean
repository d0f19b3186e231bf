import ArchDiagram.Command.Perform

/-!
The program. It takes a snapshot of the files that a command line can need, performs the command
line on the snapshot, and carries the result out: the texts are printed, and a settings file that
was written is written to the disk. Directories behind symbolic links are not entered.
-/

namespace ArchDiagram

partial def snapshot? (place : String) : IO (Option FileNode) := do
  let path := (← IO.currentDir) / place
  if !(← path.pathExists) then return none
  if !(← path.isDir) then
    return some (.file (← IO.FS.readBinFile path).toList)
  let mut entries := []
  for entry in ← path.readDir do
    let isLink := (← entry.path.symlinkMetadata).type matches .symlink
    if !isLink || !(← entry.path.isDir) then
      if let some node ← snapshot? entry.path.toString then
        entries := (entry.fileName, node) :: entries
  return some (.directory entries)

/-- The disk with what is at a path. Without its content, a directory is empty. -/
def addPath (withContent : Bool) (disk : Disk) (path : Path) : IO Disk := do
  let .ok path := disk.resolve path | return disk
  let place := path.text
  let isDirectory ← ((← IO.currentDir) / place).isDir
  let found ← if isDirectory && !withContent then pure (some (.directory [])) else snapshot? place
  return match found with
    | some node => { disk with root := node.put path.parts disk.root }
    | none => disk

def addWay (disk : Disk) (path : Path) : IO Disk := do
  let .ok path := disk.resolve path | return disk
  path.upwards.reverse.foldlM (fun disk directory => do
    let isKnown := (disk.node? directory).toBool
    let disk ← if isKnown then pure disk else addPath false disk directory
    addPath true disk (directory.child Settings.fileName)) disk

def addFor (disk : Disk) : Command → IO Disk
  | .init directory => addWay disk directory
  | .check paths given? => do
    let disk ← paths.foldlM (fun disk path => do addPath true (← addWay disk path) path) disk
    given?.toList.foldlM (fun disk path => do addPath true (← addWay disk path) path) disk
  | .dump file _ => do addPath false (← addWay disk file) file

def emptyDisk : IO Disk := do
  let here := Path.ofText (← IO.currentDir).toString
  return ⟨(FileNode.directory []).put here.parts (.directory []), here.parts⟩

def diskFor (words : List String) : IO Disk := do
  let disk ← emptyDisk
  match Command.read words with
  | .ok ⟨_, some command⟩ => addFor disk command
  | _ => return disk

def carryOut (words : List String) (disk : Disk) (outcome : Command.Outcome) : IO Unit := do
  if let .ok ⟨_, some (.init directory)⟩ := Command.read words then
    let .ok directory := disk.resolve directory | return
    let path := directory.child Settings.fileName
    if let (.error _, .ok bytes) := (disk.read path, outcome.disk.read path) then
      IO.FS.writeBinFile path.text ⟨bytes.toArray⟩

end ArchDiagram

def main (words : List String) : IO UInt32 := do
  let disk ← ArchDiagram.diskFor words
  let outcome := ArchDiagram.Command.perform disk words
  ArchDiagram.carryOut words disk outcome
  IO.print outcome.results
  IO.eprint outcome.reports
  match outcome.status with
  | .ok status => return UInt32.ofNat status
  | .error failure => do
    IO.eprintln failure.message
    return 1
