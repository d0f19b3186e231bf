import ArchDiagram.Token
import ArchDiagram.OrderedMap
import ArchDiagram.Decimal.Binary64

/-!
Programs as trees. Every node has the span of source text that it was read from; spans apart, a
tree says what was declared and in which order.
-/

namespace ArchDiagram

/-- A stretch of source: where it starts and the offset behind its last character. -/
structure Span where
  start : Position
  stop : Nat
deriving DecidableEq, Repr

inductive TypeExpr
  | simple (name : String) (span : Span)
  | generic (base : String) (args : List TypeExpr) (span : Span)
  | nullable (inner : TypeExpr) (span : Span)
deriving Repr

inductive Constant
  | text (value : String)
  | integer (value : Int)
  | decimal (value : Decimal.Binary64)
  | boolean (value : Bool)
deriving DecidableEq, Repr

structure Literal where
  value : Constant
  span : Span
deriving DecidableEq, Repr

structure FieldDecl where
  visibility : VisibilityMark
  modifiers : List Modifier
  name : String
  type : TypeExpr
  defaultValue : Option Literal
  span : Span
deriving Repr

structure ParamDecl where
  name : String
  type : TypeExpr
  span : Span
deriving Repr

structure MethodDecl where
  visibility : VisibilityMark
  modifiers : List Modifier
  name : String
  params : List ParamDecl
  returnType : TypeExpr
  span : Span
deriving Repr

structure ValueDecl where
  name : String
  span : Span
deriving DecidableEq, Repr

inductive Member
  | field (decl : FieldDecl)
  | method (decl : MethodDecl)
  | value (decl : ValueDecl)
deriving Repr

structure EntityDecl where
  modifiers : List Modifier
  kind : EntityKind
  name : String
  stereotype : Option String
  extendsNames : List String
  implementsNames : List String
  members : List Member
  span : Span
deriving Repr

/-- A relation between two entities. The ends stand as in the source, whichever way the operator
points. -/
structure RelationDecl where
  source : String
  target : String
  operator : RelationOperator
  label : Option String
  sourceMultiplicity : Option String
  targetMultiplicity : Option String
  style : OrderedMap String
  span : Span
deriving DecidableEq, Repr

structure NoteDecl where
  text : String
  target : Option String
  span : Span
deriving DecidableEq, Repr

structure StyleDecl where
  target : String
  styles : OrderedMap String
  span : Span
deriving DecidableEq, Repr

structure LayoutDecl where
  target : String
  x : Decimal.Binary64
  y : Decimal.Binary64
  span : Span
deriving DecidableEq, Repr

inductive Declaration
  | entity (decl : EntityDecl)
  | relation (decl : RelationDecl)
  | note (decl : NoteDecl)
  | style (decl : StyleDecl)
  | layout (decl : LayoutDecl)
deriving Repr

inductive Item
  | package (name : String) (body : List Item) (span : Span)
  | declaration (decl : Declaration)
deriving Repr

structure DiagramDecl where
  name : String
  kind : DiagramKind
  body : List Item
  span : Span
deriving Repr

structure ImportDecl where
  path : String
  span : Span
deriving DecidableEq, Repr

structure Program where
  imports : List ImportDecl
  diagrams : List DiagramDecl
  span : Span
deriving Repr

end ArchDiagram
