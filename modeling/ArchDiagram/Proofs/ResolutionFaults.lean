import ArchDiagram.Proofs.Sites.Body
import ArchDiagram.Proofs.Inheritance
import ArchDiagram.Report

/-!
The checks across a diagram, as faults at uses. Names are used at the ends of relations, as targets
of styles and layouts and as parents of entities. A use is a fault if no declaration of the diagram
has the name, wherever it stands. What is found on a rule are its faults in the order of their
sites.
-/

namespace ArchDiagram.Analysis

/-- The use of a name: the rule that it is under, the path of its declaration, its number among the
names there, and what is reported if it is unknown. -/
inductive Uses (body : List Item) : Rule → List Nat → Nat → String → Finding → Prop
  | relationEnd {path : List Nat} {decl : RelationDecl} {number : Nat} {name : String} :
      DeclaredAt body path (.relation decl) → [decl.source, decl.target][number]? = some name →
      Uses body .unknownRelationEnd path number name ⟨.unknownRelationEnd name, decl.span⟩
  | style {path : List Nat} {decl : StyleDecl} : DeclaredAt body path (.style decl) →
      Uses body .unknownStyleTarget path 0 decl.target ⟨.unknownStyleTarget decl.target, decl.span⟩
  | layout {path : List Nat} {decl : LayoutDecl} : DeclaredAt body path (.layout decl) →
      Uses body .unknownLayoutTarget path 0 decl.target
        ⟨.unknownLayoutTarget decl.target, decl.span⟩
  | extends_ {path : List Nat} {entity : EntityDecl} {number : Nat} {name : String} :
      FirstAt body path entity → entity.extendsNames[number]? = some name →
      Uses body .unknownExtends path number name ⟨.unknownExtends entity.name name, entity.span⟩
  | implements_ {path : List Nat} {entity : EntityDecl} {number : Nat} {name : String} :
      FirstAt body path entity → entity.implementsNames[number]? = some name →
      Uses body .unknownImplements path number name
        ⟨.unknownImplements entity.name name, entity.span⟩

/-- What is wrong across a diagram, rule by rule: names that are used and not declared, kinds that
the diagram does not allow, and what is reported on circular inheritance. -/
inductive ResolutionFault (diagram : DiagramDecl) : Rule → List Nat ×ₗ Nat → Finding → Prop
  | unknown {rule : Rule} {path : List Nat} {number : Nat} {name : String} {finding : Finding} :
      Uses diagram.body rule path number name finding → ¬ Declared diagram.body name →
      ResolutionFault diagram rule (toLex (path, number)) finding
  | circular {path : List Nat} {entity : EntityDecl} : FirstAt diagram.body path entity →
      circularFinding entity ∈ circularFindings diagram →
      ResolutionFault diagram .circularInheritance (toLex (path, 0)) (circularFinding entity)
  | kind {path : List Nat} {entity : EntityDecl} : diagram.kind ≠ .flow →
      FirstAt diagram.body path entity → allows diagram.kind entity.kind = false →
      ResolutionFault diagram .kindNotAllowed (toLex (path, 0))
        ⟨.kindNotAllowed entity.name entity.kind diagram.kind, entity.span⟩

section Lists

variable {α : Type}

theorem Enumerates.reported {Site : Type} [Preorder Site] {stands : Site → α → Prop}
    {list : List α} (listed : Enumerates stands list) (p : α → Prop) [DecidablePred p]
    (report : α → Finding) :
    Enumerates (fun site finding => ∃ x, stands site x ∧ p x ∧ finding = report x)
      ((list.filter (p ·)).map report) := by
  rw [← List.filterMap_eq_map, List.filterMap_filter]
  refine (listed.filterMap _).congr fun site finding => exists_congr fun x =>
    and_congr_right fun _ => ?_
  by_cases holds : p x
  · simp [holds, eq_comm]
  · simp [holds]

variable {stands : List Nat → α → Prop} {list : List α} (listed : Enumerates stands list)

include listed

theorem Enumerates.reported_whole (p : α → Prop) [DecidablePred p] (report : α → Finding) :
    Enumerates (fun (place : List Nat ×ₗ Nat) finding =>
        ∃ path x, place = toLex (path, 0) ∧ stands path x ∧ p x ∧ finding = report x)
      ((list.filter (p ·)).map report) := by
  refine ((listed.reported p report).at_sites (fun path => toLex (path, 0)) ?_).congr ?_
  · exact fun _ _ _ _ _ _ less => Prod.Lex.toLex_lt_toLex.2 (.inl less)
  · intro place finding
    constructor
    · rintro ⟨path, rfl, x, there, holds, rfl⟩
      exact ⟨path, x, rfl, there, holds, rfl⟩
    · rintro ⟨path, x, rfl, there, holds, rfl⟩
      exact ⟨path, rfl, x, there, holds, rfl⟩

theorem Enumerates.unknown {names : List String} (wanted : α → List String)
    (report : α → String → Finding) :
    Enumerates (fun (place : List Nat ×ₗ Nat) finding => ∃ path number x name,
        place = toLex (path, number) ∧ stands path x ∧ (wanted x)[number]? = some name ∧
        name ∉ names ∧ finding = report x name)
      (list.flatMap fun x => ((wanted x).filter (· ∉ names)).map (report x)) := by
  refine (listed.flatMap _ (fun _ x number finding => ∃ name, (wanted x)[number]? = some name ∧
    name ∉ names ∧ finding = report x name) fun _ x _ =>
    (enumerates_list (wanted x)).reported (· ∉ names) (report x)).congr fun place finding => ?_
  constructor
  · rintro ⟨x, there, name, wants, absent, rfl⟩
    exact ⟨_, _, x, name, rfl, there, wants, absent, rfl⟩
  · rintro ⟨path, number, x, name, rfl, there, wants, absent, rfl⟩
    exact ⟨x, there, name, wants, absent, rfl⟩

end Lists

section Checks

variable (diagram : DiagramDecl)

theorem enumerates_relationFindings :
    Enumerates (ResolutionFault diagram .unknownRelationEnd)
      (relationFindings (keptEntities diagram.body).keys (relationDecls diagram.body)) := by
  refine ((enumerates_relations diagram.body).unknown (fun decl => [decl.source, decl.target])
    fun decl name => ⟨.unknownRelationEnd name, decl.span⟩).congr fun place finding => ?_
  simp only [mem_keys_keptEntities]
  constructor
  · rintro ⟨path, number, decl, name, rfl, there, ends, absent, rfl⟩
    exact .unknown (.relationEnd there ends) absent
  · rintro ⟨use, absent⟩
    cases use with
    | relationEnd there ends => exact ⟨_, _, _, _, rfl, there, ends, absent, rfl⟩

theorem enumerates_inheritanceFindings :
    Enumerates (ResolutionFault diagram .circularInheritance)
      (inheritanceFindings (countedEntities diagram)) := by
  refine ((enumerates_kept diagram.body).reported_whole
    (·.name ∈ circularNames (inheritance diagram)) circularFinding).congr fun place finding => ?_
  have reported {path : List Nat} {entity : EntityDecl} (there : FirstAt diagram.body path entity) :
      circularFinding entity ∈ circularFindings diagram ↔
        entity.name ∈ circularNames (inheritance diagram) :=
    mem_circularFindings (((enumerates_kept diagram.body).mem_iff entity).2 ⟨path, there⟩)
  constructor
  · rintro ⟨path, entity, rfl, there, circular, rfl⟩
    exact .circular there ((reported there).2 circular)
  · rintro (⟨⟨⟩, -⟩ | ⟨there, circular⟩)
    exact ⟨_, _, rfl, there, (reported there).1 circular, rfl⟩

theorem enumerates_styleFindings :
    Enumerates (ResolutionFault diagram .unknownStyleTarget)
      (styleFindings (keptEntities diagram.body).keys (styleDecls diagram.body)) := by
  refine ((enumerates_styles diagram.body).reported_whole
    (·.target ∉ (keptEntities diagram.body).keys)
    fun decl => ⟨.unknownStyleTarget decl.target, decl.span⟩).congr fun place finding => ?_
  simp only [mem_keys_keptEntities]
  constructor
  · rintro ⟨path, decl, rfl, there, absent, rfl⟩
    exact .unknown (.style there) absent
  · rintro ⟨use, absent⟩
    cases use with
    | style there => exact ⟨_, _, rfl, there, absent, rfl⟩

theorem enumerates_kindFindings :
    Enumerates (ResolutionFault diagram .kindNotAllowed)
      (kindFindings diagram.kind (countedEntities diagram)) := by
  have flow {kind : EntityKind} (excluded : allows diagram.kind kind = false) :
      diagram.kind ≠ .flow := by
    intro same
    rw [same] at excluded
    cases excluded
  have listed := (enumerates_kept diagram.body).reported_whole
    (fun entity => allows diagram.kind entity.kind = false)
    fun entity => ⟨.kindNotAllowed entity.name entity.kind diagram.kind, entity.span⟩
  simp only [Bool.decide_eq_false] at listed
  refine listed.congr fun place finding => ?_
  constructor
  · rintro ⟨path, entity, rfl, there, excluded, rfl⟩
    exact .kind (flow excluded) there excluded
  · rintro (⟨⟨⟩, -⟩ | - | ⟨-, there, excluded⟩)
    exact ⟨_, _, rfl, there, excluded, rfl⟩

theorem enumerates_layoutFindings :
    Enumerates (ResolutionFault diagram .unknownLayoutTarget)
      (layoutFindings (keptEntities diagram.body).keys (layoutDecls diagram.body)) := by
  refine ((enumerates_layouts diagram.body).reported_whole
    (·.target ∉ (keptEntities diagram.body).keys)
    fun decl => ⟨.unknownLayoutTarget decl.target, decl.span⟩).congr fun place finding => ?_
  simp only [mem_keys_keptEntities]
  constructor
  · rintro ⟨path, decl, rfl, there, absent, rfl⟩
    exact .unknown (.layout there) absent
  · rintro ⟨use, absent⟩
    cases use with
    | layout there => exact ⟨_, _, rfl, there, absent, rfl⟩

theorem enumerates_extendsFindings :
    Enumerates (ResolutionFault diagram .unknownExtends)
      (extendsFindings (keptEntities diagram.body).keys (countedEntities diagram)) := by
  refine ((enumerates_kept diagram.body).unknown (·.extendsNames) fun entity name =>
    ⟨.unknownExtends entity.name name, entity.span⟩).congr fun place finding => ?_
  simp only [mem_keys_keptEntities]
  constructor
  · rintro ⟨path, number, entity, name, rfl, there, parent, absent, rfl⟩
    exact .unknown (.extends_ there parent) absent
  · rintro ⟨use, absent⟩
    cases use with
    | extends_ there parent => exact ⟨_, _, _, _, rfl, there, parent, absent, rfl⟩

theorem enumerates_implementsFindings :
    Enumerates (ResolutionFault diagram .unknownImplements)
      (implementsFindings (keptEntities diagram.body).keys (countedEntities diagram)) := by
  refine ((enumerates_kept diagram.body).unknown (·.implementsNames) fun entity name =>
    ⟨.unknownImplements entity.name name, entity.span⟩).congr fun place finding => ?_
  simp only [mem_keys_keptEntities]
  constructor
  · rintro ⟨path, number, entity, name, rfl, there, parent, absent, rfl⟩
    exact .unknown (.implements_ there parent) absent
  · rintro ⟨use, absent⟩
    cases use with
    | implements_ there parent => exact ⟨_, _, _, _, rfl, there, parent, absent, rfl⟩

theorem enumerates_findingsOn {rule : Rule} (resolution : rule ∈ resolutionRules) :
    Enumerates (ResolutionFault diagram rule) (findingsOn diagram rule) := by
  have checks := map_findingsOn diagram
  simp only [resolutionRules, List.map_cons, List.map_nil, List.cons.injEq, and_true] at checks
  obtain ⟨ends, circular, styles, kinds, layouts, parents, interfaces⟩ := checks
  -- One case for each check, in the order in which they are made.
  simp only [resolutionRules, List.mem_cons, List.not_mem_nil, or_false] at resolution
  rcases resolution with rfl | rfl | rfl | rfl | rfl | rfl | rfl
  · exact ends ▸ enumerates_relationFindings diagram
  · exact circular ▸ enumerates_inheritanceFindings diagram
  · exact styles ▸ enumerates_styleFindings diagram
  · exact kinds ▸ enumerates_kindFindings diagram
  · exact layouts ▸ enumerates_layoutFindings diagram
  · exact parents ▸ enumerates_extendsFindings diagram
  · exact interfaces ▸ enumerates_implementsFindings diagram

end Checks

theorem rule_of_resolutionFault {diagram : DiagramDecl} {rule : Rule} {place : List Nat ×ₗ Nat}
    {finding : Finding} (fault : ResolutionFault diagram rule place finding) :
    finding.violation.rule = rule := by
  cases fault with
  | unknown use _ => cases use <;> rfl
  | circular => rfl
  | kind => rfl

/-- The declarations of entities stand elsewhere: in another order, before or behind what uses them,
or in other packages. -/
structure Moved (diagram other : DiagramDecl) : Prop where
  kind : other.kind = diagram.kind
  entities : (countedEntities other).Perm (countedEntities diagram)
  relations : relationDecls other.body = relationDecls diagram.body
  styles : styleDecls other.body = styleDecls diagram.body
  layouts : layoutDecls other.body = layoutDecls diagram.body

namespace Moved

variable {diagram other : DiagramDecl} (moved : Moved diagram other)

include moved

theorem mem_keys (name : String) :
    name ∈ (keptEntities other.body).keys ↔ name ∈ (keptEntities diagram.body).keys := by
  rw [← map_name_countedEntities, ← map_name_countedEntities]
  exact (moved.entities.map _).mem_iff

/-- What uses a name finds it wherever it is declared. -/
theorem findingsOn_eq {rule : Rule}
    (use : rule ∈ [.unknownRelationEnd, .unknownStyleTarget, .unknownLayoutTarget]) :
    findingsOn other rule = findingsOn diagram rule := by
  have checks := map_findingsOn diagram
  have checks' := map_findingsOn other
  simp only [resolutionRules, List.map_cons, List.map_nil, List.cons.injEq, and_true,
    relationFindings, styleFindings, layoutFindings, moved.mem_keys, moved.relations, moved.styles,
    moved.layouts] at checks checks'
  simp only [List.mem_cons, List.not_mem_nil, or_false] at use
  rcases use with rfl | rfl | rfl
  · exact checks'.1.trans checks.1.symm
  · exact checks'.2.2.1.trans checks.2.2.1.symm
  · exact checks'.2.2.2.2.1.trans checks.2.2.2.2.1.symm

theorem findingsOn_perm {rule : Rule}
    (own : rule ∈ [.kindNotAllowed, .unknownExtends, .unknownImplements]) :
    (findingsOn other rule).Perm (findingsOn diagram rule) := by
  have checks := map_findingsOn diagram
  have checks' := map_findingsOn other
  simp only [resolutionRules, List.map_cons, List.map_nil, List.cons.injEq, and_true,
    kindFindings, extendsFindings, implementsFindings, moved.mem_keys, moved.kind]
    at checks checks'
  -- The reports are in the order of the entities, which need not be the same.
  obtain ⟨-, -, -, kinds, -, parents, interfaces⟩ := checks
  obtain ⟨-, -, -, kinds', -, parents', interfaces'⟩ := checks'
  simp only [List.mem_cons, List.not_mem_nil, or_false] at own
  rcases own with rfl | rfl | rfl
  · rw [kinds, kinds']
    exact (moved.entities.filter _).map _
  · rw [parents, parents']
    exact moved.entities.flatMap_right _
  · rw [interfaces, interfaces']
    exact moved.entities.flatMap_right _

end Moved

/-- What is found across a diagram comes behind what is found at declarations, rule by rule. On every
rule it is exactly the faults: each use of a name that no declaration has, each entity that counts
and has a kind that the diagram does not allow, and what there is on circular inheritance, in the
order of the declarations that are reported. Where declarations of entities stand does not matter to
what uses their names. -/
theorem resolutionFindings_exact (diagram : DiagramDecl) :
    diagramFindings diagram =
      declarationFindings diagram.body ++ resolutionRules.flatMap (findingsOn diagram) ∧
    (∀ rule ∈ resolutionRules, ∀ found, Enumerates (ResolutionFault diagram rule) found ↔
      found = findingsOn diagram rule) ∧
    (∀ rule place finding, ResolutionFault diagram rule place finding →
      finding.report.rule = rule.id ∧ finding.report.line = some ↑finding.span.start.line ∧
        finding.report.column = some ↑finding.span.start.column) ∧
    ∀ other, Moved diagram other →
      (∀ rule ∈ [.unknownRelationEnd, .unknownStyleTarget, .unknownLayoutTarget],
        findingsOn other rule = findingsOn diagram rule) ∧
      ∀ rule ∈ [.kindNotAllowed, .unknownExtends, .unknownImplements],
        (findingsOn other rule).Perm (findingsOn diagram rule) := by
  refine ⟨diagramFindings_eq diagram, ?_, ?_, ?_⟩
  · intro rule resolution found
    have listed := enumerates_findingsOn diagram resolution
    constructor
    · exact fun again => again.unique listed
    · rintro rfl
      exact listed
  · intro rule place finding fault
    have own := rule_of_resolutionFault fault
    exact ⟨congrArg Rule.id own, rfl, rfl⟩
  · intro other moved
    exact ⟨fun _ => moved.findingsOn_eq, fun _ => moved.findingsOn_perm⟩

/-- A relation in front of the declarations of its ends, one of them in a package and repeated. Only
the parents of its first declaration are looked at, each as often as it stands there. With the
declarations in front and no package around them, the same is found. -/
theorem resolutionFindings_exact_forward :
    let span : Span := ⟨.start, 0⟩
    let entity (name : String) (parents : List String) : Item :=
      .declaration (.entity ⟨[], .classType, name, none, parents, [], [], span⟩)
    let relation : Item := .declaration (.relation ⟨"A", "B", .association, none, none, none,
      .empty, span⟩)
    let diagram : DiagramDecl := ⟨"d", .classes, [relation, .package "p" [entity "A" ["Q", "B", "Q"]]
      span, entity "B" [], entity "A" ["R"]], span⟩
    let other : DiagramDecl := ⟨"d", .classes, [entity "B" [], entity "A" ["Q", "B", "Q"],
      relation], span⟩
    findingsOn diagram .unknownExtends =
      [⟨.unknownExtends "A" "Q", span⟩, ⟨.unknownExtends "A" "Q", span⟩] ∧
    findingsOn other .unknownRelationEnd = [] ∧
    (findingsOn other .unknownExtends).Perm
      [⟨.unknownExtends "A" "Q", span⟩, ⟨.unknownExtends "A" "Q", span⟩] := by
  intro span entity relation diagram other
  have parents : findingsOn diagram .unknownExtends =
      [⟨.unknownExtends "A" "Q", span⟩, ⟨.unknownExtends "A" "Q", span⟩] := by decide +kernel
  have ends : findingsOn diagram .unknownRelationEnd = [] := by decide +kernel
  have moved : Moved diagram other := ⟨rfl, .swap .., rfl, rfl, rfl⟩
  obtain ⟨-, -, -, elsewhere⟩ := resolutionFindings_exact diagram
  obtain ⟨same, perm⟩ := elsewhere other moved
  rw [← parents, ← ends]
  exact ⟨rfl, same _ (by decide), perm _ (by decide)⟩

end ArchDiagram.Analysis
