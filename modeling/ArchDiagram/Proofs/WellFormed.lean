import ArchDiagram.Proofs.Inheritance
import ArchDiagram.Proofs.Packages

/-!
What the object model of a diagram without a finding is like. It is closed: every name in it is that
of an entity. Its entities keep the rules of their kinds, nothing is named twice, and packages list
what they hold.
-/

namespace ArchDiagram

namespace Model

/-- An entity that a kind of diagram may show, with members as its own kind has them. -/
structure Entity.WellFormed (diagram : DiagramKind) (entity : Entity) : Prop where
  allowed : Analysis.allows diagram entity.kind = true
  members : (entity.fields.map (·.name) ++ entity.methods.map (·.name)).Nodup
  values : (entity.values.map (·.name)).Nodup
  params : ∀ method ∈ entity.methods, (method.params.map (·.name)).Nodup
  enumeration : entity.kind = .enumeration → entity.values ≠ []
  interface : entity.kind = .interface → ∀ field ∈ entity.fields, field.defaultValue = none

def Diagram.Extends (diagram : Diagram) (name parent : String) : Prop :=
  ∃ entity, (name, entity) ∈ diagram.entities.entries ∧ parent ∈ entity.extendsNames

structure Diagram.WellFormed (diagram : Diagram) : Prop where
  ends : ∀ relation ∈ diagram.relations,
    relation.source ∈ diagram.entities.keys ∧ relation.target ∈ diagram.entities.keys
  parents : ∀ entry ∈ diagram.entities.entries,
    (∀ parent ∈ entry.2.extendsNames, parent ∈ diagram.entities.keys) ∧
    ∀ parent ∈ entry.2.implementsNames, parent ∈ diagram.entities.keys
  acyclic : ∀ name, ¬ Relation.TransGen diagram.Extends name name
  entities : ∀ entry ∈ diagram.entities.entries, entry.2.WellFormed diagram.kind
  named : ∀ entry ∈ diagram.entities.entries, entry.2.id = entry.1 ∧ entry.2.name = entry.1
  unique : diagram.entities.keys.Nodup
  packaged : ∀ entry ∈ diagram.entities.entries,
    Package.listing diagram.packages entry.1 = entry.2.package.toList
  relationIds : (diagram.relations.map (·.id)).Nodup

end Model

mutual

def Item.entityCount : Item → Nat
  | .package _ body _ => Item.entityCounts body
  | .declaration (.entity _) => 1
  | .declaration _ => 0

def Item.entityCounts : List Item → Nat
  | [] => 0
  | item :: rest => item.entityCount + Item.entityCounts rest

end

namespace Analysis

mutual

theorem length_entitiesOf_item (package : Option String) : (item : Item) →
    (entitiesOf (itemOutline package item)).length = item.entityCount
  | .package name body _ => by
    rw [itemOutline, Item.entityCount]
    exact length_entitiesOf (some name) body
  | .declaration decl => by cases decl <;> rfl

theorem length_entitiesOf (package : Option String) : (body : List Item) →
    (entitiesOf (outline package body)).length = Item.entityCounts body
  | [] => rfl
  | item :: rest => by
    rw [outline, entitiesOf_append, List.length_append, length_entitiesOf_item, length_entitiesOf,
      Item.entityCounts]

end

section Declarations

variable {entity : EntityDecl}

theorem fieldDecls_methodDecls_perm (members : List Member) :
    ((fieldDecls members).map (·.name) ++ (methodDecls members).map (·.name)).Perm
      (members.filterMap memberName?) := by
  induction members with
  | nil => exact .nil
  | cons member rest ih =>
    cases member with
    | field decl => exact ih.cons decl.name
    | method decl => exact List.perm_middle.trans (ih.cons decl.name)
    | value decl => exact ih

theorem map_name_valueDecls (members : List Member) :
    (valueDecls members).map (·.name) = members.filterMap valueName? := by
  rw [valueDecls, List.map_filterMap]
  refine congrArg (List.filterMap · members) (funext fun member => ?_)
  cases member <;> rfl

theorem mem_fieldDecls {members : List Member} {decl : FieldDecl} :
    decl ∈ fieldDecls members ↔ .field decl ∈ members := by
  simp only [fieldDecls, List.mem_filterMap]
  constructor
  · rintro ⟨member, inside, same⟩
    cases member <;> cases same
    exact inside
  · intro inside
    exact ⟨.field decl, inside, rfl⟩

theorem mem_methodDecls {members : List Member} {decl : MethodDecl} :
    decl ∈ methodDecls members ↔ .method decl ∈ members := by
  simp only [methodDecls, List.mem_filterMap]
  constructor
  · rintro ⟨member, inside, same⟩
    cases member <;> cases same
    exact inside
  · intro inside
    exact ⟨.method decl, inside, rfl⟩

variable (clean : entityFindings entity = [])

include clean

theorem memberFindings_eq_nil {found : List Member} {member : Member}
    (inside : (found, member) ∈ withEarlier entity.members) :
    memberFindings entity found member = [] := by
  rw [entityFindings, List.append_eq_nil_iff, List.append_eq_nil_iff] at clean
  exact List.flatMap_eq_nil_iff.1 clean.1.2 (found, member) inside

theorem nodup_memberNames : (entity.members.filterMap memberName?).Nodup := by
  refine nodup_of_withEarlier memberName? fun found member inside name named known => ?_
  have quiet := memberFindings_eq_nil clean inside
  cases member with
  | value decl => cases named
  | field decl =>
    cases named
    simp [memberFindings, repeatedMember, known] at quiet
  | method decl =>
    cases named
    simp [memberFindings, repeatedMember, known] at quiet

theorem nodup_valueNames : (entity.members.filterMap valueName?).Nodup := by
  refine nodup_of_withEarlier valueName? fun found member inside name named known => ?_
  have quiet := memberFindings_eq_nil clean inside
  cases member with
  | value decl =>
    cases named
    simp [memberFindings, known] at quiet
  | field decl => cases named
  | method decl => cases named

theorem nodup_params {decl : MethodDecl} (member : .method decl ∈ entity.members) :
    (decl.params.map (·.name)).Nodup := by
  obtain ⟨found, inside⟩ := exists_mem_withEarlier member
  have quiet := memberFindings_eq_nil clean inside
  rw [memberFindings, List.append_eq_nil_iff, repeatedParams] at quiet
  refine nodup_map_of_withEarlier _ fun earlier param front known => ?_
  simpa [known] using List.flatMap_eq_nil_iff.1 quiet.2 (earlier, param) front

theorem defaultValue_eq_none {decl : FieldDecl} (interface : entity.kind = .interface)
    (member : .field decl ∈ entity.members) : decl.defaultValue = none := by
  obtain ⟨found, inside⟩ := exists_mem_withEarlier member
  have quiet := memberFindings_eq_nil clean inside
  rw [memberFindings, List.append_eq_nil_iff] at quiet
  simpa [defaultInInterface, interface] using quiet.2

theorem values_ne_nil (enumeration : entity.kind = .enumeration) :
    entity.members.filterMap valueName? ≠ [] := by
  intro none_
  rw [entityFindings, List.append_eq_nil_iff] at clean
  simp [missingValues, enumeration, none_] at clean

theorem wellFormed_lowerEntity {diagram : DiagramKind} (package : Option String)
    (allowed : allows diagram entity.kind = true) :
    (lowerEntity ⟨package, entity⟩).WellFormed diagram := by
  constructor
  · exact allowed
  · have distinct := (fieldDecls_methodDecls_perm entity.members).nodup_iff.2
      (nodup_memberNames clean)
    simpa [lowerEntity, lowerField, lowerMethod, Function.comp_def] using distinct
  · have distinct := nodup_valueNames clean
    rw [← map_name_valueDecls] at distinct
    simpa [lowerEntity, Function.comp_def] using distinct
  · intro method member
    obtain ⟨decl, inside, rfl⟩ := List.mem_map.1 member
    have distinct := nodup_params clean (mem_methodDecls.1 inside)
    simpa [lowerMethod, Function.comp_def] using distinct
  · intro enumeration none_
    have some_ := values_ne_nil clean enumeration
    rw [← map_name_valueDecls] at some_
    exact some_ (by simpa [lowerEntity] using none_)
  · intro interface field member
    obtain ⟨decl, inside, rfl⟩ := List.mem_map.1 member
    rw [lowerField, defaultValue_eq_none clean interface (mem_fieldDecls.1 inside)]
    rfl

end Declarations

theorem toString_injective {m n : Nat} (same : toString m = toString n) : m = n := by
  rw [Nat.toString_eq_ofList_toDigits, Nat.toString_eq_ofList_toDigits,
    String.ofList_inj] at same
  have values := congrArg (Nat.ofDigitChars 10 · 0) same
  simpa only [Nat.ofDigitChars_ten_toDigits] using values

theorem nodup_relationIds (relations : List RelationDecl) :
    ((relations.mapIdx lowerRelation).map (·.id)).Nodup := by
  rw [List.nodup_iff_injective_getElem]
  intro i j same
  simp only [List.getElem_map, List.getElem_mapIdx, lowerRelation, String.append_right_inj] at same
  exact Fin.ext (toString_injective same)

section Diagram

variable {diagram : DiagramDecl}

theorem mem_entityMap {body : List Item} {entry : String × Model.Entity}
    (member : entry ∈ (entityMap body).entries) : ∃ placed ∈ entityDecls body,
      entry.1 = placed.decl.name ∧ ∃ note place styles, entry.2 =
        { lowerEntity placed with note := note, place := place, styles := styles } := by
  obtain ⟨kept, inside, rfl⟩ := List.mem_map.1 member
  have keeps := keeps_keptEntities body
  have declared : kept.2 ∈ entityDecls body :=
    keeps.inOrder.subset (List.mem_map_of_mem inside)
  exact ⟨kept.2, declared, keeps.keyed kept inside, _, _, _, rfl⟩

theorem unknown_eq_nil_iff {α : Type} {names : List String} {wanted : α → List String}
    {report : α → String → Finding} {list : List α} :
    (list.flatMap fun x => ((wanted x).filter (· ∉ names)).map (report x)) = [] ↔
      ∀ x ∈ list, ∀ name ∈ wanted x, name ∈ names := by
  simp

theorem lookup_ancestry {entities : List EntityDecl} {entity : EntityDecl}
    (distinct : (entities.map (·.name)).Nodup) (member : entity ∈ entities) :
    (ancestry entities).lookup entity.name = some entity.extendsNames := by
  obtain ⟨before, after, rfl⟩ := List.append_of_mem member
  rw [List.lookup_eq_some_iff]
  refine ⟨ancestry before, ancestry after, by simp [ancestry], fun entry front => ?_⟩
  obtain ⟨earlier, inside, rfl⟩ := List.mem_map.1 front
  rw [List.map_append, List.nodup_append] at distinct
  have apart := distinct.2.2 earlier.name (List.mem_map_of_mem inside) entity.name List.mem_cons_self
  simpa using apart.symm

theorem keys_entityMap (body : List Item) : (entityMap body).keys = (keptEntities body).keys :=
  OrderedMap.keys_mapValues _ _

variable (clean : diagramFindings diagram = [])

include clean

theorem declarationFindings_eq_nil {found : List EntityDecl} {entity : EntityDecl}
    (inside : (found, entity) ∈ withEarlier ((entityDecls diagram.body).map (·.decl))) :
    entityFindings entity = [] ∧ entity.name ∉ found.map (·.name) := by
  rw [diagramFindings, List.append_eq_nil_iff] at clean
  have quiet := List.flatMap_eq_nil_iff.1 clean.1 (found, entity) inside
  rw [List.append_eq_nil_iff] at quiet
  refine ⟨quiet.1, fun known => ?_⟩
  simp [repeatedEntity, known] at quiet

theorem entityFindings_eq_nil {placed : Placed EntityDecl}
    (member : placed ∈ entityDecls diagram.body) : entityFindings placed.decl = [] := by
  have declared : placed.decl ∈ (entityDecls diagram.body).map (·.decl) :=
    List.mem_map_of_mem member
  obtain ⟨found, inside⟩ := exists_mem_withEarlier declared
  exact (declarationFindings_eq_nil clean inside).1

theorem nodup_entityDecls : ((entityDecls diagram.body).map (·.decl.name)).Nodup := by
  have distinct : (((entityDecls diagram.body).map (·.decl)).map (·.name)).Nodup :=
    nodup_map_of_withEarlier _ fun found entity inside =>
      (declarationFindings_eq_nil clean inside).2
  rwa [List.map_map] at distinct

theorem countedEntities_of_clean :
    countedEntities diagram = (entityDecls diagram.body).map (·.decl) := by
  rw [countedEntities_eq, (keeps_keptEntities diagram.body).entries_eq (nodup_entityDecls clean)]

theorem resolutionFindings_eq_nil : resolutionFindings diagram.kind diagram.body = [] := by
  rw [diagramFindings, List.append_eq_nil_iff] at clean
  exact clean.2

theorem keys_eq_of_clean :
    (entityMap diagram.body).keys = (entityDecls diagram.body).map (·.decl.name) := by
  rw [keys_entityMap, ← map_name_countedEntities, countedEntities_of_clean clean, List.map_map]
  rfl

theorem relationEnds_of_clean : ∀ relation ∈ relationDecls diagram.body,
    ∀ name ∈ [relation.source, relation.target], name ∈ (entityMap diagram.body).keys := by
  have quiet := resolutionFindings_eq_nil clean
  simp only [resolutionFindings, List.append_eq_nil_iff] at quiet
  rw [keys_entityMap]
  exact unknown_eq_nil_iff.1 quiet.1.1.1.1.1.1

theorem parents_of_clean : ∀ placed ∈ entityDecls diagram.body,
    (∀ parent ∈ placed.decl.extendsNames, parent ∈ (entityMap diagram.body).keys) ∧
    ∀ parent ∈ placed.decl.implementsNames, parent ∈ (entityMap diagram.body).keys := by
  have quiet := resolutionFindings_eq_nil clean
  simp only [resolutionFindings, List.append_eq_nil_iff] at quiet
  intro placed member
  have counted : placed.decl ∈ countedEntities diagram := by
    rw [countedEntities_of_clean clean]
    exact List.mem_map_of_mem member
  rw [keys_entityMap]
  constructor
  · exact unknown_eq_nil_iff.1 quiet.1.2 placed.decl counted
  · exact unknown_eq_nil_iff.1 quiet.2 placed.decl counted

theorem allows_of_clean {placed : Placed EntityDecl} (member : placed ∈ entityDecls diagram.body) :
    allows diagram.kind placed.decl.kind = true := by
  have quiet := resolutionFindings_eq_nil clean
  simp only [resolutionFindings, List.append_eq_nil_iff] at quiet
  have kinds : kindFindings diagram.kind (countedEntities diagram) = [] := quiet.1.1.1.2
  rw [kindFindings, List.map_eq_nil_iff, List.filter_eq_nil_iff,
    countedEntities_of_clean clean] at kinds
  simpa using kinds placed.decl (List.mem_map_of_mem member)

/-- The links of the object model are links of the graph that was searched. -/
theorem extends_of_clean {name parent : String} (link : (lowerDiagram diagram).Extends name parent) :
    Extends (inheritance diagram) name parent := by
  obtain ⟨entity, member, up⟩ := link
  obtain ⟨placed, declared, rfl, note, place, styles, rfl⟩ := mem_entityMap member
  have counted : placed.decl ∈ countedEntities diagram := by
    rw [countedEntities_of_clean clean]
    exact List.mem_map_of_mem declared
  constructor
  · rw [inheritance, lookup_ancestry (nodup_countedEntities diagram) counted]
    exact up
  · have known := (parents_of_clean clean placed declared).1 parent up
    rw [keys_entityMap, ← map_name_countedEntities, ← map_fst_inheritance] at known
    obtain ⟨entry, inside, rfl⟩ := List.mem_map.1 known
    exact List.lookup_isSome_iff.2 ⟨entry, inside, beq_self_eq_true _⟩

theorem acyclic_of_clean (name : String) :
    ¬ Relation.TransGen (lowerDiagram diagram).Extends name name := by
  have quiet : circularFindings diagram = [] := by
    rw [circularFindings, clean]
    rfl
  intro cycle
  have acyclic := (circularFindings_eq_nil_iff diagram).1 quiet name
  have links : (lowerDiagram diagram).Extends ≤ Extends (inheritance diagram) :=
    fun _ _ => extends_of_clean clean
  exact acyclic (Relation.TransGen.mono links name name cycle)

theorem wellFormed_lowerDiagram : (lowerDiagram diagram).WellFormed where
  ends := by
    intro relation member
    obtain ⟨i, bound, rfl⟩ := List.mem_mapIdx.1 member
    have known := relationEnds_of_clean clean _ (List.getElem_mem bound)
    exact ⟨known _ (by simp [lowerRelation]), known _ (by simp [lowerRelation])⟩
  parents := by
    intro entry member
    obtain ⟨placed, declared, -, note, place, styles, same⟩ := mem_entityMap member
    rw [same]
    exact parents_of_clean clean placed declared
  acyclic := acyclic_of_clean clean
  entities := by
    intro entry member
    obtain ⟨placed, declared, -, note, place, styles, same⟩ := mem_entityMap member
    have own := wellFormed_lowerEntity (entityFindings_eq_nil clean declared) placed.package
      (allows_of_clean clean declared)
    rw [same]
    exact ⟨own.allowed, own.members, own.values, own.params, own.enumeration, own.interface⟩
  named := by
    intro entry member
    obtain ⟨placed, -, name, note, place, styles, same⟩ := mem_entityMap member
    rw [same, name]
    exact ⟨rfl, rfl⟩
  unique := by
    change (entityMap diagram.body).keys.Nodup
    rw [keys_eq_of_clean clean]
    exact nodup_entityDecls clean
  packaged := by
    intro entry member
    obtain ⟨placed, declared, name, note, place, styles, same⟩ := mem_entityMap member
    rw [same, name]
    exact listing_packages (nodup_entityDecls clean) declared
  relationIds := nodup_relationIds (relationDecls diagram.body)

end Diagram

/-- A diagram without a finding has a well-formed object model, which has as many entities as the
diagram declares. -/
theorem clean_diagram_wellFormed {program : Program} {diagram : DiagramDecl}
    (member : diagram ∈ program.diagrams) (clean : diagramFindings diagram = []) :
    ∃ model ∈ (lower program).diagrams, model = lowerDiagram diagram ∧ model.WellFormed ∧
      model.entities.keys.length = Item.entityCounts diagram.body := by
  refine ⟨lowerDiagram diagram, List.mem_map_of_mem member, rfl, wellFormed_lowerDiagram clean, ?_⟩
  have keys : (lowerDiagram diagram).entities.keys = (entityDecls diagram.body).map (·.decl.name) :=
    keys_eq_of_clean clean
  rw [keys, List.length_map]
  exact length_entitiesOf none diagram.body

/-- A package with an enumeration and a class below an interface, which is declared outside it, and
a relation between both. -/
theorem clean_diagram_wellFormed_packaged :
    let span : Span := ⟨.start, 0⟩
    let text : TypeExpr := .simple "string" span
    let class_ : EntityDecl := ⟨[.abstract], .classType, "A", none, ["B"], ["I"],
      [.field ⟨.plus, [], "a", text, none, span⟩,
       .method ⟨.minus, [.static], "f", [⟨"x", text, span⟩], text, span⟩], span⟩
    let values : EntityDecl :=
      ⟨[], .enumeration, "E", none, [], [], [.value ⟨"X", span⟩, .value ⟨"Y", span⟩], span⟩
    let above : EntityDecl := ⟨[], .classType, "B", none, [], [], [], span⟩
    let interface : EntityDecl := ⟨[], .interface, "I", none, [], [], [], span⟩
    let relation : RelationDecl :=
      ⟨"A", "I", .realization, none, none, none, .empty, span⟩
    let diagram : DiagramDecl := ⟨"d", .classes,
      [.package "p" [.declaration (.entity class_), .declaration (.entity values)] span,
       .declaration (.entity above), .declaration (.entity interface),
       .declaration (.relation relation)], span⟩
    diagramFindings diagram = [] ∧ (lowerDiagram diagram).WellFormed ∧
      (lowerDiagram diagram).entities.keys = ["A", "E", "B", "I"] := by
  intro span text class_ values above interface relation diagram
  have clean : diagramFindings diagram = [] := by decide +kernel
  have member : diagram ∈ (Program.mk [] [diagram] span).diagrams := List.mem_cons_self
  obtain ⟨_, -, rfl, wellFormed, -⟩ := clean_diagram_wellFormed member clean
  exact ⟨clean, wellFormed, by decide +kernel⟩

end Analysis

end ArchDiagram
