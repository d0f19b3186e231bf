import ArchDiagram.Main
import ArchDiagram.Proofs.Reading
import ArchDiagram.Proofs.Grammar
import ArchDiagram.Proofs.Grammar.Soundness
import ArchDiagram.Proofs.Grammar.Completeness
import ArchDiagram.Proofs.Lexing
import ArchDiagram.Proofs.Bare
import ArchDiagram.Proofs.Grammar.Semicolons
import ArchDiagram.Proofs.Acceptance
import ArchDiagram.Proofs.Simulation
import ArchDiagram.Proofs.Simulation.Readers
import ArchDiagram.Proofs.Layout.Agreement
import ArchDiagram.Proofs.Spans
import ArchDiagram.Proofs.Layout
import ArchDiagram.Proofs.WellFormed
import ArchDiagram.Proofs.Printing
import ArchDiagram.Proofs.Gaps
import ArchDiagram.Proofs.Yields
import ArchDiagram.Proofs.WithinBudget
import ArchDiagram.Proofs.Nesting
import ArchDiagram.Proofs.Joining
import ArchDiagram.Proofs.TypeText.Names
import ArchDiagram.Proofs.TypeText.Reading
import ArchDiagram.Proofs.TypeText
import ArchDiagram.Proofs.Shift
import ArchDiagram.Proofs.LineEnds
import ArchDiagram.Proofs.Modularity
import ArchDiagram.Proofs.FirstEnd
import ArchDiagram.Proofs.Sites
import ArchDiagram.Proofs.Sites.Body
import ArchDiagram.Proofs.DeclarationFaults
import ArchDiagram.Proofs.ResolutionFaults
import ArchDiagram.Proofs.Rearrangement
import ArchDiagram.Proofs.Records
import ArchDiagram.Proofs.Annotations
import ArchDiagram.Proofs.CheckCommand
import ArchDiagram.Proofs.PackageTree
import ArchDiagram.Proofs.Relations
import ArchDiagram.Proofs.SimpleCycles
import ArchDiagram.Proofs.Shortsighted
import ArchDiagram.Proofs.Skipping
import ArchDiagram.Proofs.Holes
import ArchDiagram.Proofs.TooDeep
import ArchDiagram.Proofs.Ensures
import ArchDiagram.Proofs.Reports
import ArchDiagram.Proofs.Placement
import ArchDiagram.Proofs.Placement.Readers
import ArchDiagram.Proofs.Locations
import ArchDiagram.Proofs.Shapes
import ArchDiagram.Proofs.Shapes.Readers
import ArchDiagram.Proofs.Grammar.Colors
import ArchDiagram.Proofs.ProtectedFields
import ArchDiagram.Proofs.Ways
import ArchDiagram.Proofs.Patterns
import ArchDiagram.Proofs.Selection
import ArchDiagram.Proofs.Failures
import ArchDiagram.Proofs.Growth
import ArchDiagram.Proofs.InitCommand
import ArchDiagram.Proofs.SettingsReading
