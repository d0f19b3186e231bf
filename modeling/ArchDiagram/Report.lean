import ArchDiagram.SyntaxError
import ArchDiagram.Analysis.Rule

/-!
Reports, as they are shown to a user: one line each, with the place in brackets in front.
-/

namespace ArchDiagram

structure SyntaxReport where
  message : String
  line : Int
  column : Int
deriving DecidableEq, Repr

/-- A report on a broken rule. The entity and the place may be unknown. -/
structure RuleReport where
  message : String
  rule : String
  entity : Option String
  line : Option Int
  column : Option Int
deriving DecidableEq, Repr

def SyntaxReport.text (report : SyntaxReport) : String :=
  "[" ++ toString report.line ++ ":" ++ toString report.column ++ "] " ++ report.message

/-- A column, or a word where it is unknown. -/
def columnText : Option Int → String
  | some column => toString column
  | none => "None"

/-- The line of a report. The place is left out where the line is unknown. -/
def RuleReport.text (report : RuleReport) : String :=
  let rest := "(" ++ report.rule ++ ") " ++ report.message
  match report.line with
  | some line => "[" ++ toString line ++ ":" ++ columnText report.column ++ "] " ++ rest
  | none => rest

def reportTexts (onText : List SyntaxReport) (onRules : List RuleReport) : List String :=
  onText.map (·.text) ++ onRules.map (·.text)

def SyntaxError.report (error : SyntaxError) : SyntaxReport :=
  ⟨error.message, error.position.line, error.position.column⟩

def Analysis.Finding.report (finding : Finding) : RuleReport where
  message := finding.violation.message
  rule := finding.violation.rule.id
  entity := finding.violation.entity?
  line := some finding.span.start.line
  column := some finding.span.start.column

end ArchDiagram
