import ArchDiagram.Syntax.Parser
import ArchDiagram.Analysis.Findings
import ArchDiagram.Analysis.Lowering
import ArchDiagram.Report

/-!
Checking one source: reading it, building its object model, and leaving out the findings whose
rules are switched off.
-/

namespace ArchDiagram

structure Checked where
  program : Program
  model : Model
  syntaxErrors : List SyntaxError
  findings : List Analysis.Finding
  suppressed : Nat
deriving Repr

namespace Checked

def hasErrors (checked : Checked) : Bool :=
  !checked.syntaxErrors.isEmpty || !checked.findings.isEmpty

def errorCount (checked : Checked) : Nat := checked.syntaxErrors.length + checked.findings.length

def messages (checked : Checked) : List String :=
  reportTexts (checked.syntaxErrors.map (·.report)) (checked.findings.map (·.report))

end Checked

/-- Checks a source, leaving out the rules with the given names. -/
def check (disabledRules : List String) (source : String) : Except Syntax.Fault Checked :=
  (Syntax.parse source).map fun parsed =>
    let all := Analysis.findings parsed.program
    let kept := all.filter (·.violation.rule.id ∉ disabledRules)
    { program := parsed.program
      model := Analysis.lower parsed.program
      syntaxErrors := parsed.errors
      findings := kept
      suppressed := all.length - kept.length }

end ArchDiagram
