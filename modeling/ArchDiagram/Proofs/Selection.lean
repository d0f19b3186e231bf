import ArchDiagram.Discovery
import ArchDiagram.Proofs.Patterns

/-!
The sources that settings select in a directory: the files whose names below it fit a pattern and
that no directory with an excluded name is in the way of, in order, each once.
-/

namespace ArchDiagram

namespace Pattern

open ArchDiagram.Text (CodePoints codes)

/-- Why a text is no pattern: it begins with a slash, or there is nothing but single dots between
its slashes, or two stars next to each other are not all that is there between two of them. -/
inductive Unacceptable (text : CodePoints) : Prop
  | absolute {rest : CodePoints} : text = Sign.slash :: rest → Unacceptable text
  | bare : (∀ part ∈ Path.splitAt Sign.slash text, part = [] ∨ part = codes ".") →
      Unacceptable text
  | starred {part : CodePoints} : part ∈ Path.splitAt Sign.slash text → part ≠ codes "**" →
      codes "**" <:+: part → Unacceptable text

end Pattern

namespace Discovery

theorem le_iff (a b : Path) : Path.le a b = true ↔ ¬ b.parts < a.parts := by
  rw [Path.le, Bool.not_eq_true', ← Bool.not_eq_true, List.lex_eq_true_iff_lt]

section Select

variable (disk : Disk)

variable {disk} {excludedNames : List Text.CodePoints} {root path : Path}

end Select

end Discovery

end ArchDiagram
