import ArchDiagram.Analysis.Outline
import ArchDiagram.Analysis.Rule
import ArchDiagram.Analysis.Inheritance

/-!
What is wrong with a diagram. Every check is a list of findings over the outline of the diagram,
and the findings of a diagram are the checks one after the other.
-/

namespace ArchDiagram.Analysis

/-- The name of a field or method. Both share one name space. -/
def memberName? : Member → Option String
  | .field decl => some decl.name
  | .method decl => some decl.name
  | .value _ => none

def valueName? : Member → Option String
  | .value decl => some decl.name
  | .field _ | .method _ => none

def repeatedMember (entity : String) (earlier : List Member) (name : String) (span : Span) :
    List Finding :=
  if name ∈ earlier.filterMap memberName? then [⟨.duplicateMember name entity, span⟩] else []

def defaultInInterface (entity : EntityDecl) (field : FieldDecl) : List Finding :=
  if entity.kind = .interface ∧ field.defaultValue.isSome then
    [⟨.interfaceDefault field.name entity.name, field.span⟩]
  else []

def repeatedParams (entity : String) (method : MethodDecl) : List Finding :=
  (withEarlier method.params).flatMap fun (earlier, param) =>
    if param.name ∈ earlier.map (·.name) then
      [⟨.duplicateParameter param.name method.name entity, param.span⟩]
    else []

def memberFindings (entity : EntityDecl) (earlier : List Member) : Member → List Finding
  | .value decl =>
    if decl.name ∈ earlier.filterMap valueName? then
      [⟨.duplicateValue decl.name entity.name, decl.span⟩]
    else []
  | .field decl =>
    repeatedMember entity.name earlier decl.name decl.span ++ defaultInInterface entity decl
  | .method decl =>
    repeatedMember entity.name earlier decl.name decl.span ++ repeatedParams entity.name decl

def conflictingModifiers (entity : EntityDecl) : List Finding :=
  if .abstract ∈ entity.modifiers ∧ .final ∈ entity.modifiers then
    [⟨.abstractAndFinal entity.name, entity.span⟩]
  else []

def missingValues (entity : EntityDecl) : List Finding :=
  if entity.kind = .enumeration ∧ entity.members.filterMap valueName? = [] then
    [⟨.emptyEnumeration entity.name, entity.span⟩]
  else []

def entityFindings (entity : EntityDecl) : List Finding :=
  conflictingModifiers entity
    ++ (withEarlier entity.members).flatMap (fun (earlier, member) =>
      memberFindings entity earlier member)
    ++ missingValues entity

def repeatedEntity (earlier : List EntityDecl) (entity : EntityDecl) : List Finding :=
  if entity.name ∈ earlier.map (·.name) then [⟨.duplicateEntity entity.name, entity.span⟩] else []

/-- What is wrong with the declarations one by one, repeated ones included. -/
def declarationFindings (body : List Item) : List Finding :=
  (withEarlier ((entityDecls body).map (·.decl))).flatMap fun (earlier, entity) =>
    entityFindings entity ++ repeatedEntity earlier entity

-- Checks across the diagram. They are given the declared names, or the entities that count.

def relationFindings (names : List String) (relations : List RelationDecl) : List Finding :=
  relations.flatMap fun relation =>
    ([relation.source, relation.target].filter (· ∉ names)).map fun name =>
      ⟨.unknownRelationEnd name, relation.span⟩

def ancestry (entities : List EntityDecl) : Ancestry :=
  entities.map fun entity => (entity.name, entity.extendsNames)

def inheritanceFindings (entities : List EntityDecl) : List Finding :=
  let circular := circularNames (ancestry entities)
  (entities.filter (·.name ∈ circular)).map fun entity =>
    ⟨.circularInheritance entity.name, entity.span⟩

def styleFindings (names : List String) (styles : List StyleDecl) : List Finding :=
  (styles.filter (·.target ∉ names)).map fun style => ⟨.unknownStyleTarget style.target, style.span⟩

/-- Whether a kind of diagram may show a kind of entity. Flow diagrams show every kind. -/
def allows : DiagramKind → EntityKind → Bool
  | .classes, kind => kind ∈ [.classType, .interface, .enumeration]
  | .usecase, kind => kind ∈ [.actor, .usecase]
  | .sequence, kind => kind = .actor
  | .component, kind => kind = .component
  | .deployment, kind => kind ∈ [.component, .node]
  | .flow, _ => true

def kindFindings (kind : DiagramKind) (entities : List EntityDecl) : List Finding :=
  (entities.filter (!allows kind ·.kind)).map fun entity =>
    ⟨.kindNotAllowed entity.name entity.kind kind, entity.span⟩

def layoutFindings (names : List String) (layouts : List LayoutDecl) : List Finding :=
  (layouts.filter (·.target ∉ names)).map fun layout =>
    ⟨.unknownLayoutTarget layout.target, layout.span⟩

def extendsFindings (names : List String) (entities : List EntityDecl) : List Finding :=
  entities.flatMap fun entity =>
    (entity.extendsNames.filter (· ∉ names)).map fun parent =>
      ⟨.unknownExtends entity.name parent, entity.span⟩

def implementsFindings (names : List String) (entities : List EntityDecl) : List Finding :=
  entities.flatMap fun entity =>
    (entity.implementsNames.filter (· ∉ names)).map fun parent =>
      ⟨.unknownImplements entity.name parent, entity.span⟩

def resolutionFindings (kind : DiagramKind) (body : List Item) : List Finding :=
  let names := (keptEntities body).keys
  let entities := (keptEntities body).entries.map (·.2.decl)
  relationFindings names (relationDecls body)
    ++ inheritanceFindings entities
    ++ styleFindings names (styleDecls body)
    ++ kindFindings kind entities
    ++ layoutFindings names (layoutDecls body)
    ++ extendsFindings names entities
    ++ implementsFindings names entities

def diagramFindings (diagram : DiagramDecl) : List Finding :=
  declarationFindings diagram.body ++ resolutionFindings diagram.kind diagram.body

def findings (program : Program) : List Finding := program.diagrams.flatMap diagramFindings

end ArchDiagram.Analysis
