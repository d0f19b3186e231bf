import ArchDiagram.Disk
import ArchDiagram.Text.Line
import ArchDiagram.Text.Utf8

/-!
Files as text: their bytes in UTF-8, with line ends of every kind as line feeds.
-/

namespace ArchDiagram.Disk

inductive TextFailure
  | unusable (failure : Failure)
  | undecodable (fault : Text.Utf8Fault)
deriving DecidableEq, Repr

def TextFailure.message (failure : TextFailure) (path : Path) : String :=
  match failure with
  | unusable failure => failure.message path
  | undecodable fault => fault.message

def readText (disk : Disk) (path : Path) : Except TextFailure String :=
  match disk.read path with
  | .error failure => .error (.unusable failure)
  | .ok bytes =>
    match Text.decode bytes with
    | .error fault => .error (.undecodable fault)
    | .ok cs => .ok (String.ofList (Text.unifyLineEnds cs))

end ArchDiagram.Disk
