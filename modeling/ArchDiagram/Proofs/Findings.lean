import ArchDiagram.Analysis.Findings

/-!
Which check reports which rule. Every check has a rule of its own, so the findings on a rule are
those of its check.
-/

namespace ArchDiagram.Analysis

def Reports (rule : Rule) (list : List Finding) : Prop :=
  ∀ finding ∈ list, finding.violation.rule = rule

section Checks

variable {names : List String} {entities : List EntityDecl} {entity : EntityDecl}

theorem reports_single {rule : Rule} {p : Prop} [Decidable p] {finding : Finding}
    (same : finding.violation.rule = rule) : Reports rule (if p then [finding] else []) := by
  intro other member
  split at member
  · rw [List.mem_singleton.1 member, same]
  · cases member

theorem reports_map {α : Type} {rule : Rule} {report : α → Finding} {list : List α}
    (same : ∀ x, (report x).violation.rule = rule) : Reports rule (list.map report) := by
  intro other member
  obtain ⟨x, -, rfl⟩ := List.mem_map.1 member
  exact same x

theorem reports_flatMap {α : Type} {rule : Rule} {report : α → List Finding} {list : List α}
    (same : ∀ x, Reports rule (report x)) : Reports rule (list.flatMap report) := by
  intro other member
  obtain ⟨x, -, inside⟩ := List.mem_flatMap.1 member
  exact same x other inside

theorem reports_repeatedMember {owner name : String} {earlier : List Member} {span : Span} :
    Reports .duplicateMember (repeatedMember owner earlier name span) := reports_single rfl

theorem reports_defaultInInterface {field : FieldDecl} :
    Reports .interfaceDefault (defaultInInterface entity field) := reports_single rfl

theorem reports_repeatedParams {owner : String} {method : MethodDecl} :
    Reports .duplicateParameter (repeatedParams owner method) :=
  reports_flatMap fun _ => reports_single rfl

theorem reports_conflictingModifiers : Reports .abstractAndFinal (conflictingModifiers entity) :=
  reports_single rfl

theorem reports_missingValues : Reports .emptyEnumeration (missingValues entity) :=
  reports_single rfl

theorem reports_repeatedEntity {earlier : List EntityDecl} :
    Reports .duplicateEntity (repeatedEntity earlier entity) := reports_single rfl

theorem reports_relationFindings {relations : List RelationDecl} :
    Reports .unknownRelationEnd (relationFindings names relations) :=
  reports_flatMap fun _ => reports_map fun _ => rfl

theorem reports_inheritanceFindings :
    Reports .circularInheritance (inheritanceFindings entities) := reports_map fun _ => rfl

theorem reports_styleFindings {styles : List StyleDecl} :
    Reports .unknownStyleTarget (styleFindings names styles) := reports_map fun _ => rfl

theorem reports_kindFindings {kind : DiagramKind} :
    Reports .kindNotAllowed (kindFindings kind entities) := reports_map fun _ => rfl

theorem reports_layoutFindings {layouts : List LayoutDecl} :
    Reports .unknownLayoutTarget (layoutFindings names layouts) := reports_map fun _ => rfl

theorem reports_extendsFindings : Reports .unknownExtends (extendsFindings names entities) :=
  reports_flatMap fun _ => reports_map fun _ => rfl

theorem reports_implementsFindings :
    Reports .unknownImplements (implementsFindings names entities) :=
  reports_flatMap fun _ => reports_map fun _ => rfl

end Checks

def declarationRules : List Rule :=
  [.duplicateEntity, .duplicateMember, .emptyEnumeration, .interfaceDefault, .duplicateValue,
   .abstractAndFinal, .duplicateParameter]

theorem rule_of_mem_memberFindings {entity : EntityDecl} {earlier : List Member} {member : Member}
    {finding : Finding} (found : finding ∈ memberFindings entity earlier member) :
    finding.violation.rule ∈ declarationRules := by
  cases member with
  | value decl =>
    have value : Reports .duplicateValue (memberFindings entity earlier (.value decl)) :=
      reports_single rfl
    rw [value finding found]
    decide
  | field decl =>
    rcases List.mem_append.1 found with repeated | default_
    · rw [reports_repeatedMember finding repeated]
      decide
    · rw [reports_defaultInInterface finding default_]
      decide
  | method decl =>
    rcases List.mem_append.1 found with repeated | params
    · rw [reports_repeatedMember finding repeated]
      decide
    · rw [reports_repeatedParams finding params]
      decide

theorem rule_of_mem_declarationFindings {body : List Item} {finding : Finding}
    (found : finding ∈ declarationFindings body) : finding.violation.rule ∈ declarationRules := by
  obtain ⟨⟨earlier, entity⟩, -, inside⟩ := List.mem_flatMap.1 found
  rcases List.mem_append.1 inside with own | repeated
  · rcases List.mem_append.1 own with own | values
    · rcases List.mem_append.1 own with modifiers | members
      · rw [reports_conflictingModifiers finding modifiers]
        decide
      · obtain ⟨_, -, inside⟩ := List.mem_flatMap.1 members
        exact rule_of_mem_memberFindings inside
    · rw [reports_missingValues finding values]
      decide
  · rw [reports_repeatedEntity finding repeated]
    decide

def resolutionRules : List Rule :=
  [.unknownRelationEnd, .circularInheritance, .unknownStyleTarget, .kindNotAllowed,
   .unknownLayoutTarget, .unknownExtends, .unknownImplements]

theorem Reports.filter_eq {rule wanted : Rule} {list : List Finding} (reports : Reports rule list) :
    list.filter (·.violation.rule = wanted) = if rule = wanted then list else [] := by
  by_cases same : rule = wanted
  · rw [if_pos same, List.filter_eq_self]
    intro finding member
    simp [reports finding member, same]
  · rw [if_neg same, List.filter_eq_nil_iff]
    intro finding member
    simp [reports finding member, same]

def findingsOn (diagram : DiagramDecl) (rule : Rule) : List Finding :=
  (diagramFindings diagram).filter (·.violation.rule = rule)

theorem findingsOn_eq {rule : Rule} (resolution : rule ∈ resolutionRules) (diagram : DiagramDecl) :
    findingsOn diagram rule =
      (resolutionFindings diagram.kind diagram.body).filter (·.violation.rule = rule) := by
  have none_ : (declarationFindings diagram.body).filter (·.violation.rule = rule) = [] := by
    rw [List.filter_eq_nil_iff]
    intro finding found same
    have apart : ∀ other ∈ declarationRules, other ∉ resolutionRules := by decide
    exact apart _ (rule_of_mem_declarationFindings found) (of_decide_eq_true same ▸ resolution)
  rw [findingsOn, diagramFindings, List.filter_append, none_, List.nil_append]

/-- Across the diagram every rule has a check of its own, and they are made in this order. -/
theorem map_findingsOn (diagram : DiagramDecl) :
    let names := (keptEntities diagram.body).keys
    let entities := (keptEntities diagram.body).entries.map (·.2.decl)
    resolutionRules.map (findingsOn diagram) =
      [relationFindings names (relationDecls diagram.body), inheritanceFindings entities,
       styleFindings names (styleDecls diagram.body), kindFindings diagram.kind entities,
       layoutFindings names (layoutDecls diagram.body), extendsFindings names entities,
       implementsFindings names entities] := by
  intro names entities
  have own : resolutionRules.map (findingsOn diagram) = resolutionRules.map fun rule =>
      (resolutionFindings diagram.kind diagram.body).filter (·.violation.rule = rule) :=
    List.map_congr_left fun rule resolution => findingsOn_eq resolution diagram
  rw [own]
  simp [resolutionRules, resolutionFindings, reports_relationFindings.filter_eq,
    reports_inheritanceFindings.filter_eq, reports_styleFindings.filter_eq,
    reports_kindFindings.filter_eq, reports_layoutFindings.filter_eq,
    reports_extendsFindings.filter_eq, reports_implementsFindings.filter_eq, names, entities]

theorem diagramFindings_eq (diagram : DiagramDecl) : diagramFindings diagram =
    declarationFindings diagram.body ++ resolutionRules.flatMap (findingsOn diagram) := by
  rw [List.flatMap_def, map_findingsOn]
  simp [diagramFindings, resolutionFindings]

theorem filter_circularInheritance (diagram : DiagramDecl) :
    (diagramFindings diagram).filter (·.violation.rule = .circularInheritance) =
      inheritanceFindings ((keptEntities diagram.body).entries.map (·.2.decl)) :=
  (List.cons.inj (List.cons.inj (map_findingsOn diagram)).2).1

end ArchDiagram.Analysis
