import ArchDiagram.Command.Reading
import ArchDiagram.Disk.Text
import ArchDiagram.Discovery
import ArchDiagram.Environment
import ArchDiagram.Settings.File
import ArchDiagram.Syntax.Cursor

/-!
Runs: computations that write lines as they go and may end early. The lines that were written before
the end are kept, however a run ends.
-/

namespace ArchDiagram.Command

inductive Part
  | commands
  | settings
  | checking
deriving DecidableEq, Repr

def Part.name : Part → String
  | commands => "isomorph.cli.main"
  | settings => "isomorph.config"
  | checking => "isomorph.checker"

/-- A written line: a result, a report, or a traced step, which is shown only on demand. -/
inductive Line
  | result (text : String)
  | report (text : String)
  | trace (part : Part) (text : String)
deriving DecidableEq, Repr

inductive Failure
  | source (fault : Syntax.Fault)
  | pattern (fault : Pattern.Fault)
  | document (fault : Yaml.Fault)
  | keyTooLong
  | undecodable (fault : Text.Utf8Fault)
  | unusable (fault : Disk.Unusable)
  | indentNegative
  | indentTooLarge
deriving DecidableEq, Repr

/-- The stack has no room left, be it for a document or for a pattern. -/
def Failure.tooDeep : Failure := .document .endless

def Failure.message : Failure → String
  | source fault => fault.message
  | pattern fault => fault.message
  | document fault => fault.message
  | keyTooLong => Decimal.tooLongMessage none
  | undecodable fault => fault.message
  | unusable fault => fault.message
  | indentNegative => "can't convert negative int to unsigned"
  | indentTooLarge => "int too big to convert"

/-- Why a run ends early: it is over, with an exit status, or it has failed. -/
inductive Stop
  | exit (status : Nat)
  | failure (failure : Failure)
deriving DecidableEq, Repr

structure Run (α : Type) where
  lines : List Line
  value : Except Stop α

namespace Run

variable {α β : Type}

def andThen (run : Run α) (next : α → Run β) : Run β :=
  match run.value with
  | .error stop => ⟨run.lines, .error stop⟩
  | .ok value => ⟨run.lines ++ (next value).lines, (next value).value⟩

instance : Monad Run where
  pure value := ⟨[], .ok value⟩
  bind := andThen

def write (line : Line) : Run Unit := ⟨[line], .ok ()⟩

def result (text : String) : Run Unit := write (.result text)

def report (text : String) : Run Unit := write (.report text)

def trace (part : Part) (text : String) : Run Unit := write (.trace part text)

def stop (stop : Stop) : Run α := ⟨[], .error stop⟩

def reject (message : String) : Run α := ⟨[.report ("Error: " ++ message)], .error (.exit 1)⟩

def orFail {ε : Type} (failure : ε → Failure) : Except ε α → Run α
  | .ok value => ⟨[], .ok value⟩
  | .error error => ⟨[], .error (.failure (failure error))⟩

@[simp] theorem pure_def (value : α) : (pure value : Run α) = ⟨[], .ok value⟩ := rfl

end Run

end ArchDiagram.Command
