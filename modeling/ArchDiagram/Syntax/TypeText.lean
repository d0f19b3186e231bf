import ArchDiagram.Syntax

/-!
Types as text: the form in which they are declared, with a comma and a blank between arguments.
-/

namespace ArchDiagram

mutual

def TypeExpr.text : TypeExpr → String
  | .simple name _ => name
  | .generic base args _ => base ++ "<" ++ ", ".intercalate (TypeExpr.texts args) ++ ">"
  | .nullable inner _ => inner.text ++ "?"

def TypeExpr.texts : List TypeExpr → List String
  | [] => []
  | type :: rest => type.text :: TypeExpr.texts rest

end

end ArchDiagram
