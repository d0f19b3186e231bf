import ArchDiagram.Analysis.Outline
import ArchDiagram.Syntax.TypeText
import ArchDiagram.Decimal.Notation
import ArchDiagram.Model

/-!
From declarations to the object model. An entity takes its own record from its first declaration;
notes, styles and places are attached to it wherever in the diagram they stand.
-/

namespace ArchDiagram

/-- The visibility that a mark grants. Without a mark a member is for all. -/
def VisibilityMark.meaning : VisibilityMark → Model.Visibility
  | plus | absent => .forAll
  | minus => .forOwner
  | hash => .forHeirs
  | tilde => .forPackage

def Constant.toText : Constant → String
  | text value => value
  | integer value => toString value
  | decimal value => Decimal.plain.text value
  | boolean value => if value then "true" else "false"

namespace Analysis

def lowerField (decl : FieldDecl) : Model.Field where
  name := decl.name
  type := decl.type.text
  visibility := decl.visibility.meaning
  isStatic := decl.modifiers.contains .static
  isFinal := decl.modifiers.contains .final
  defaultValue := decl.defaultValue.map (·.value.toText)

/-- The record of a method. In an abstract entity every method is abstract. -/
def lowerMethod (inAbstract : Bool) (decl : MethodDecl) : Model.Method where
  name := decl.name
  params := decl.params.map fun param => ⟨param.name, param.type.text⟩
  returnType := decl.returnType.text
  visibility := decl.visibility.meaning
  isStatic := decl.modifiers.contains .static
  isAbstract := inAbstract || decl.modifiers.contains .abstract

def fieldDecls (members : List Member) : List FieldDecl :=
  members.filterMap fun | .field decl => some decl | _ => none

def methodDecls (members : List Member) : List MethodDecl :=
  members.filterMap fun | .method decl => some decl | _ => none

def valueDecls (members : List Member) : List ValueDecl :=
  members.filterMap fun | .value decl => some decl | _ => none

/-- The record of an entity before anything is attached to it. Interfaces are abstract. -/
def lowerEntity (placed : Placed EntityDecl) : Model.Entity :=
  let decl := placed.decl
  let isAbstract := decl.modifiers.contains .abstract
  { id := decl.name
    name := decl.name
    kind := decl.kind
    stereotype := decl.stereotype
    isAbstract := isAbstract || decl.kind = .interface
    package := placed.package
    fields := (fieldDecls decl.members).map lowerField
    methods := (methodDecls decl.members).map (lowerMethod isAbstract)
    values := (valueDecls decl.members).map fun value => ⟨value.name⟩
    extendsNames := decl.extendsNames
    implementsNames := decl.implementsNames
    place := none
    styles := .empty
    note := none }

def noteOn? (notes : List NoteDecl) (name : String) : Option String :=
  ((notes.filter (·.target = some name)).getLast?).map (·.text)

def placeOf? (layouts : List LayoutDecl) (name : String) : Option Model.Place :=
  ((layouts.filter (·.target = name)).getLast?).map fun layout => ⟨layout.x, layout.y⟩

def stylesOf (styles : List StyleDecl) (name : String) : OrderedMap String :=
  .ofList ((styles.filter (·.target = name)).flatMap (·.styles.entries))

def entityMap (body : List Item) : OrderedMap Model.Entity :=
  let notes := noteDecls body
  let layouts := layoutDecls body
  let styles := styleDecls body
  (keptEntities body).mapValues fun name placed =>
    { lowerEntity placed with
      note := noteOn? notes name
      place := placeOf? layouts name
      styles := stylesOf styles name }

def lowerRelation (number : Nat) (decl : RelationDecl) : Model.Relation where
  id := "rel_" ++ toString number
  source := decl.source
  target := decl.target
  kind := decl.operator.kind
  isReversed := decl.operator.isReversed
  label := decl.label
  sourceMultiplicity := decl.sourceMultiplicity
  targetMultiplicity := decl.targetMultiplicity
  styles := decl.style

def directNames (body : List Item) : List String :=
  (body.filterMap fun | .declaration (.entity decl) => some decl.name | _ => none).eraseDups

mutual

def itemPackages : Item → List Model.Package
  | .package name body _ => [.mk name (directNames body) (packages body)]
  | .declaration _ => []

def packages : List Item → List Model.Package
  | [] => []
  | item :: rest => itemPackages item ++ packages rest

end

def lowerDiagram (decl : DiagramDecl) : Model.Diagram where
  name := decl.name
  kind := decl.kind
  entities := entityMap decl.body
  relations := (relationDecls decl.body).mapIdx lowerRelation
  packages := packages decl.body
  notes := (noteDecls decl.body).map fun note => ⟨note.text, note.target⟩

def lower (program : Program) : Model := ⟨program.diagrams.map lowerDiagram⟩

end Analysis

end ArchDiagram
