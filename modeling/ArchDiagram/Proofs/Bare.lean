import ArchDiagram.Syntax.Parser

/-!
Trees with their spans replaced. What a tree says apart from its spans is its bare form, in which
every span is the same.
-/

namespace ArchDiagram

section

variable (f : Span → Span)

mutual

def TypeExpr.mapSpans : TypeExpr → TypeExpr
  | .simple name span => .simple name (f span)
  | .generic base args span => .generic base (TypeExpr.mapAllSpans args) (f span)
  | .nullable inner span => .nullable inner.mapSpans (f span)

def TypeExpr.mapAllSpans : List TypeExpr → List TypeExpr
  | [] => []
  | type :: rest => type.mapSpans :: TypeExpr.mapAllSpans rest

end

def Literal.mapSpans (literal : Literal) : Literal := { literal with span := f literal.span }

def FieldDecl.mapSpans (decl : FieldDecl) : FieldDecl :=
  { decl with
    type := decl.type.mapSpans f
    defaultValue := decl.defaultValue.map (·.mapSpans f)
    span := f decl.span }

def ParamDecl.mapSpans (decl : ParamDecl) : ParamDecl :=
  { decl with type := decl.type.mapSpans f, span := f decl.span }

def MethodDecl.mapSpans (decl : MethodDecl) : MethodDecl :=
  { decl with
    params := decl.params.map (·.mapSpans f)
    returnType := decl.returnType.mapSpans f
    span := f decl.span }

def ValueDecl.mapSpans (decl : ValueDecl) : ValueDecl := { decl with span := f decl.span }

def Member.mapSpans : Member → Member
  | .field decl => .field (decl.mapSpans f)
  | .method decl => .method (decl.mapSpans f)
  | .value decl => .value (decl.mapSpans f)

def EntityDecl.mapSpans (decl : EntityDecl) : EntityDecl :=
  { decl with members := decl.members.map (·.mapSpans f), span := f decl.span }

def RelationDecl.mapSpans (decl : RelationDecl) : RelationDecl := { decl with span := f decl.span }

def NoteDecl.mapSpans (decl : NoteDecl) : NoteDecl := { decl with span := f decl.span }

def StyleDecl.mapSpans (decl : StyleDecl) : StyleDecl := { decl with span := f decl.span }

def LayoutDecl.mapSpans (decl : LayoutDecl) : LayoutDecl := { decl with span := f decl.span }

def Declaration.mapSpans : Declaration → Declaration
  | .entity decl => .entity (decl.mapSpans f)
  | .relation decl => .relation (decl.mapSpans f)
  | .note decl => .note (decl.mapSpans f)
  | .style decl => .style (decl.mapSpans f)
  | .layout decl => .layout (decl.mapSpans f)

mutual

def Item.mapSpans : Item → Item
  | .package name body span => .package name (Item.mapAllSpans body) (f span)
  | .declaration decl => .declaration (decl.mapSpans f)

def Item.mapAllSpans : List Item → List Item
  | [] => []
  | item :: rest => item.mapSpans :: Item.mapAllSpans rest

end

def DiagramDecl.mapSpans (decl : DiagramDecl) : DiagramDecl :=
  { decl with body := Item.mapAllSpans f decl.body, span := f decl.span }

def ImportDecl.mapSpans (decl : ImportDecl) : ImportDecl := { decl with span := f decl.span }

def Program.mapSpans (program : Program) : Program where
  imports := program.imports.map (·.mapSpans f)
  diagrams := program.diagrams.map (·.mapSpans f)
  span := f program.span

def Syntax.TopLevel.mapSpans : Syntax.TopLevel → Syntax.TopLevel
  | .imported decl => .imported (decl.mapSpans f)
  | .diagram decl => .diagram (decl.mapSpans f)
  | .stray => .stray

theorem TypeExpr.mapAllSpans_eq (types : List TypeExpr) :
    TypeExpr.mapAllSpans f types = types.map (·.mapSpans f) := by
  induction types with
  | nil => rfl
  | cons type rest ih => rw [TypeExpr.mapAllSpans, ih, List.map_cons]

theorem Item.mapAllSpans_eq (items : List Item) :
    Item.mapAllSpans f items = items.map (·.mapSpans f) := by
  induction items with
  | nil => rfl
  | cons item rest ih => rw [Item.mapAllSpans, ih, List.map_cons]

theorem Syntax.importsOf_mapSpans (parts : List Syntax.TopLevel) :
    Syntax.importsOf (parts.map (·.mapSpans f)) = (Syntax.importsOf parts).map (·.mapSpans f) := by
  induction parts with
  | nil => rfl
  | cons part rest ih =>
    cases part with
    | imported decl => exact congrArg (decl.mapSpans f :: ·) ih
    | diagram decl => exact ih
    | stray => exact ih

theorem Syntax.diagramsOf_mapSpans (parts : List Syntax.TopLevel) :
    Syntax.diagramsOf (parts.map (·.mapSpans f)) = (Syntax.diagramsOf parts).map (·.mapSpans f) := by
  induction parts with
  | nil => rfl
  | cons part rest ih =>
    cases part with
    | imported decl => exact ih
    | diagram decl => exact congrArg (decl.mapSpans f :: ·) ih
    | stray => exact ih

end

mutual

@[simp] theorem TypeExpr.mapSpans_id : (type : TypeExpr) → type.mapSpans id = type
  | .simple _ _ => rfl
  | .generic _ args _ => by rw [mapSpans, TypeExpr.mapAllSpans_id args]; rfl
  | .nullable inner _ => by rw [mapSpans, inner.mapSpans_id]; rfl

theorem TypeExpr.mapAllSpans_id : (types : List TypeExpr) → TypeExpr.mapAllSpans id types = types
  | [] => rfl
  | type :: rest => by rw [TypeExpr.mapAllSpans, type.mapSpans_id, TypeExpr.mapAllSpans_id rest]

end

theorem FieldDecl.mapSpans_id (decl : FieldDecl) : decl.mapSpans id = decl := by
  have value (literal : Literal) : literal.mapSpans id = literal := rfl
  simp [mapSpans, value]

theorem MethodDecl.mapSpans_id (decl : MethodDecl) : decl.mapSpans id = decl := by
  simp [mapSpans, ParamDecl.mapSpans]

theorem Member.mapSpans_id (member : Member) : member.mapSpans id = member := by
  cases member with
  | field decl => exact congrArg field decl.mapSpans_id
  | method decl => exact congrArg method decl.mapSpans_id
  | value => rfl

theorem Declaration.mapSpans_id (decl : Declaration) : decl.mapSpans id = decl := by
  cases decl with
  | entity decl => simp [mapSpans, EntityDecl.mapSpans, Member.mapSpans_id]
  | _ => rfl

mutual

theorem Item.mapSpans_id : (item : Item) → item.mapSpans id = item
  | .package _ body _ => by rw [mapSpans, Item.mapAllSpans_id body]; rfl
  | .declaration decl => congrArg Item.declaration decl.mapSpans_id

theorem Item.mapAllSpans_id : (items : List Item) → Item.mapAllSpans id items = items
  | [] => rfl
  | item :: rest => by rw [Item.mapAllSpans, item.mapSpans_id, Item.mapAllSpans_id rest]

end

theorem Syntax.TopLevel.mapSpans_id (part : Syntax.TopLevel) : part.mapSpans id = part := by
  cases part with
  | diagram decl => simp [mapSpans, DiagramDecl.mapSpans, Item.mapAllSpans_id]
  | _ => rfl

def unspan (_ : Span) : Span := ⟨.start, 0⟩

def Program.bare (program : Program) : Program := program.mapSpans unspan

end ArchDiagram
