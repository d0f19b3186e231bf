import ArchDiagram.Proofs.Bare
import ArchDiagram.Proofs.Outline
import ArchDiagram.Analysis.Lowering

/-!
What is said about a program does not depend on its spans. The object model is the same whatever
they are, and findings are reported at the span that a declaration has, for the same reasons.
-/

namespace ArchDiagram

section

variable (f : Span → Span)

mutual

theorem TypeExpr.text_mapSpans : (type : TypeExpr) → (type.mapSpans f).text = type.text
  | .simple _ _ => rfl
  | .generic _ args _ => by rw [mapSpans, text, text, TypeExpr.texts_mapAllSpans args]
  | .nullable inner _ => by rw [mapSpans, text, text, inner.text_mapSpans]

theorem TypeExpr.texts_mapAllSpans : (types : List TypeExpr) →
    TypeExpr.texts (TypeExpr.mapAllSpans f types) = TypeExpr.texts types
  | [] => rfl
  | type :: rest => by
    rw [TypeExpr.mapAllSpans, TypeExpr.texts, TypeExpr.texts, type.text_mapSpans,
      TypeExpr.texts_mapAllSpans rest]

end

namespace Analysis

def Placed.map {α β : Type} (g : α → β) (placed : Placed α) : Placed β :=
  ⟨placed.package, g placed.decl⟩

mutual

theorem itemOutline_mapSpans (package : Option String) : (item : Item) →
    itemOutline package (item.mapSpans f) =
      (itemOutline package item).map (·.map (Declaration.mapSpans f))
  | .package name body _ => by rw [Item.mapSpans, itemOutline, itemOutline, outline_mapSpans]
  | .declaration _ => rfl

theorem outline_mapSpans (package : Option String) : (body : List Item) →
    outline package (Item.mapAllSpans f body) =
      (outline package body).map (·.map (Declaration.mapSpans f))
  | [] => rfl
  | item :: rest => by
    rw [Item.mapAllSpans, outline, outline, itemOutline_mapSpans, outline_mapSpans,
      List.map_append]

end

variable (body : List Item)

theorem declarations_mapSpans : declarations (Item.mapAllSpans f body) =
    (declarations body).map (·.map (Declaration.mapSpans f)) := outline_mapSpans f none body

theorem filterMap_declarations {α : Type} {g : α → α} (choose : Placed Declaration → Option α)
    (same : ∀ placed, choose (placed.map (Declaration.mapSpans f)) = (choose placed).map g) :
    (declarations (Item.mapAllSpans f body)).filterMap choose =
      ((declarations body).filterMap choose).map g := by
  rw [declarations_mapSpans]
  exact filterMap_map_comm same _

theorem entityDecls_mapSpans : entityDecls (Item.mapAllSpans f body) =
    (entityDecls body).map (·.map (EntityDecl.mapSpans f)) :=
  filterMap_declarations f body _ fun ⟨_, decl⟩ => by cases decl <;> rfl

theorem relationDecls_mapSpans : relationDecls (Item.mapAllSpans f body) =
    (relationDecls body).map (RelationDecl.mapSpans f) :=
  filterMap_declarations f body _ fun ⟨_, decl⟩ => by cases decl <;> rfl

theorem noteDecls_mapSpans : noteDecls (Item.mapAllSpans f body) =
    (noteDecls body).map (NoteDecl.mapSpans f) :=
  filterMap_declarations f body _ fun ⟨_, decl⟩ => by cases decl <;> rfl

theorem styleDecls_mapSpans : styleDecls (Item.mapAllSpans f body) =
    (styleDecls body).map (StyleDecl.mapSpans f) :=
  filterMap_declarations f body _ fun ⟨_, decl⟩ => by cases decl <;> rfl

theorem layoutDecls_mapSpans : layoutDecls (Item.mapAllSpans f body) =
    (layoutDecls body).map (LayoutDecl.mapSpans f) :=
  filterMap_declarations f body _ fun ⟨_, decl⟩ => by cases decl <;> rfl

theorem keptEntities_mapSpans : keptEntities (Item.mapAllSpans f body) =
    (keptEntities body).mapValues fun _ => Placed.map (EntityDecl.mapSpans f) := by
  have named (placed : Placed EntityDecl) :
      (placed.map (EntityDecl.mapSpans f)).decl.name = placed.decl.name := rfl
  rw [keptEntities_eq, keptEntities_eq, entityDecls_mapSpans]
  exact keepFirst_map named _

theorem lowerField_mapSpans (decl : FieldDecl) : lowerField (decl.mapSpans f) = lowerField decl := by
  simp [lowerField, FieldDecl.mapSpans, TypeExpr.text_mapSpans, Function.comp_def, Literal.mapSpans]

theorem lowerMethod_mapSpans (inAbstract : Bool) (decl : MethodDecl) :
    lowerMethod inAbstract (decl.mapSpans f) = lowerMethod inAbstract decl := by
  simp [lowerMethod, MethodDecl.mapSpans, ParamDecl.mapSpans, TypeExpr.text_mapSpans,
    Function.comp_def]

theorem filterMap_members {α : Type} {g : α → α} (choose : Member → Option α)
    (same : ∀ member, choose (member.mapSpans f) = (choose member).map g) (members : List Member) :
    (members.map (Member.mapSpans f)).filterMap choose = (members.filterMap choose).map g :=
  filterMap_map_comm same members

theorem fieldDecls_mapSpans (members : List Member) :
    fieldDecls (members.map (Member.mapSpans f)) = (fieldDecls members).map (FieldDecl.mapSpans f) :=
  filterMap_members f _ (fun member => by cases member <;> rfl) members

theorem methodDecls_mapSpans (members : List Member) : methodDecls (members.map (Member.mapSpans f)) =
    (methodDecls members).map (MethodDecl.mapSpans f) :=
  filterMap_members f _ (fun member => by cases member <;> rfl) members

theorem valueDecls_mapSpans (members : List Member) :
    valueDecls (members.map (Member.mapSpans f)) = (valueDecls members).map (ValueDecl.mapSpans f) :=
  filterMap_members f _ (fun member => by cases member <;> rfl) members

theorem lowerEntity_mapSpans (placed : Placed EntityDecl) :
    lowerEntity (placed.map (EntityDecl.mapSpans f)) = lowerEntity placed := by
  simp only [lowerEntity, Placed.map, EntityDecl.mapSpans, fieldDecls_mapSpans,
    methodDecls_mapSpans, valueDecls_mapSpans, List.map_map, Function.comp_def,
    lowerField_mapSpans, lowerMethod_mapSpans, ValueDecl.mapSpans]
  rfl

theorem noteOn?_mapSpans (notes : List NoteDecl) (name : String) :
    noteOn? (notes.map (NoteDecl.mapSpans f)) name = noteOn? notes name := by
  rw [noteOn?, List.filter_map, List.getLast?_map, Option.map_map]
  rfl

theorem placeOf?_mapSpans (layouts : List LayoutDecl) (name : String) :
    placeOf? (layouts.map (LayoutDecl.mapSpans f)) name = placeOf? layouts name := by
  rw [placeOf?, List.filter_map, List.getLast?_map, Option.map_map]
  rfl

theorem stylesOf_mapSpans (styles : List StyleDecl) (name : String) :
    stylesOf (styles.map (StyleDecl.mapSpans f)) name = stylesOf styles name := by
  rw [stylesOf, List.filter_map, List.flatMap_map]
  rfl

theorem entityMap_mapSpans : entityMap (Item.mapAllSpans f body) = entityMap body := by
  simp only [entityMap, keptEntities_mapSpans, noteDecls_mapSpans, layoutDecls_mapSpans,
    styleDecls_mapSpans, OrderedMap.mapValues_mapValues, lowerEntity_mapSpans, noteOn?_mapSpans,
    placeOf?_mapSpans, stylesOf_mapSpans]

theorem directNames_mapSpans : directNames (Item.mapAllSpans f body) = directNames body := by
  unfold directNames
  rw [Item.mapAllSpans_eq, List.filterMap_map]
  refine congrArg List.eraseDups (congrArg (List.filterMap · body) (funext fun item => ?_))
  rcases item with _ | decl
  · rfl
  · cases decl <;> rfl

mutual

theorem itemPackages_mapSpans : (item : Item) → itemPackages (item.mapSpans f) = itemPackages item
  | .package name body _ => by
    rw [Item.mapSpans, itemPackages, itemPackages, directNames_mapSpans, packages_mapSpans]
  | .declaration _ => rfl

theorem packages_mapSpans : (body : List Item) → packages (Item.mapAllSpans f body) = packages body
  | [] => rfl
  | item :: rest => by
    rw [Item.mapAllSpans, packages, packages, itemPackages_mapSpans, packages_mapSpans]

end

theorem lowerRelations_mapSpans (relations : List RelationDecl) :
    (relations.map (RelationDecl.mapSpans f)).mapIdx lowerRelation =
      relations.mapIdx lowerRelation := by
  refine List.mapIdx_eq_iff.2 fun i => ?_
  rw [List.getElem?_mapIdx, List.getElem?_map, Option.map_map]
  rfl

theorem lowerDiagram_mapSpans (decl : DiagramDecl) :
    lowerDiagram (decl.mapSpans f) = lowerDiagram decl := by
  simp only [lowerDiagram, DiagramDecl.mapSpans, entityMap_mapSpans, relationDecls_mapSpans,
    lowerRelations_mapSpans, packages_mapSpans, noteDecls_mapSpans, NoteDecl.mapSpans,
    List.map_map, Function.comp_def]

theorem lower_mapSpans (program : Program) : lower (program.mapSpans f) = lower program := by
  simp [lower, Program.mapSpans, Function.comp_def, lowerDiagram_mapSpans]

def Finding.mapSpan (finding : Finding) : Finding := { finding with span := f finding.span }

theorem mapSpan_ite {p : Prop} [Decidable p] (violation : Violation) (span : Span) :
    ((if p then [⟨violation, span⟩] else [] : List Finding)).map (Finding.mapSpan f) =
      if p then [⟨violation, f span⟩] else [] := by
  split <;> rfl

theorem flatMap_withEarlier {α : Type} {g : α → α} {check check' : List α × α → List Finding}
    (each : ∀ earlier x,
      check' (earlier.map g, g x) = (check (earlier, x)).map (Finding.mapSpan f)) (xs : List α) :
    (withEarlier (xs.map g)).flatMap check' =
      ((withEarlier xs).flatMap check).map (Finding.mapSpan f) := by
  rw [withEarlier_map, List.flatMap_map, List.map_flatMap]
  exact congrArg (List.flatMap · _) (funext fun (earlier, x) => each earlier x)

theorem memberNames_mapSpans (members : List Member) :
    (members.map (Member.mapSpans f)).filterMap memberName? = members.filterMap memberName? := by
  rw [List.filterMap_map]
  exact congrArg (List.filterMap · _) (funext fun member => by cases member <;> rfl)

theorem valueNames_mapSpans (members : List Member) :
    (members.map (Member.mapSpans f)).filterMap valueName? = members.filterMap valueName? := by
  rw [List.filterMap_map]
  exact congrArg (List.filterMap · _) (funext fun member => by cases member <;> rfl)

theorem repeatedParams_mapSpans (entity : String) (method : MethodDecl) :
    repeatedParams entity (method.mapSpans f) =
      (repeatedParams entity method).map (Finding.mapSpan f) := by
  unfold repeatedParams
  refine flatMap_withEarlier f (fun earlier param => ?_) method.params
  have names : (earlier.map (ParamDecl.mapSpans f)).map (·.name) = earlier.map (·.name) := by
    rw [List.map_map]
    rfl
  dsimp only
  rw [names, mapSpan_ite]
  rfl

theorem repeatedMember_mapSpans (entity name : String) (earlier : List Member) (span : Span) :
    repeatedMember entity (earlier.map (Member.mapSpans f)) name (f span) =
      (repeatedMember entity earlier name span).map (Finding.mapSpan f) := by
  rw [repeatedMember, repeatedMember, memberNames_mapSpans, mapSpan_ite]

theorem defaultInInterface_mapSpans (entity : EntityDecl) (field : FieldDecl) :
    defaultInInterface (entity.mapSpans f) (field.mapSpans f) =
      (defaultInInterface entity field).map (Finding.mapSpan f) := by
  have given : (field.mapSpans f).defaultValue.isSome = field.defaultValue.isSome :=
    Option.isSome_map
  rw [defaultInInterface, defaultInInterface, given, mapSpan_ite]
  rfl

theorem memberFindings_mapSpans (entity : EntityDecl) (earlier : List Member) (member : Member) :
    memberFindings (entity.mapSpans f) (earlier.map (Member.mapSpans f)) (member.mapSpans f) =
      (memberFindings entity earlier member).map (Finding.mapSpan f) := by
  cases member with
  | value decl =>
    simp only [memberFindings, Member.mapSpans]
    rw [valueNames_mapSpans, mapSpan_ite]
    rfl
  | field decl =>
    simp only [memberFindings, Member.mapSpans]
    rw [List.map_append, ← defaultInInterface_mapSpans, ← repeatedMember_mapSpans]
    rfl
  | method decl =>
    simp only [memberFindings, Member.mapSpans]
    rw [List.map_append, ← repeatedParams_mapSpans, ← repeatedMember_mapSpans]
    rfl

theorem entityFindings_mapSpans (entity : EntityDecl) :
    entityFindings (entity.mapSpans f) = (entityFindings entity).map (Finding.mapSpan f) := by
  have conflicting : conflictingModifiers (entity.mapSpans f) =
      (conflictingModifiers entity).map (Finding.mapSpan f) := by
    rw [conflictingModifiers, conflictingModifiers, mapSpan_ite]
    rfl
  have missing : missingValues (entity.mapSpans f) =
      (missingValues entity).map (Finding.mapSpan f) := by
    have values : (entity.mapSpans f).members.filterMap valueName? =
        entity.members.filterMap valueName? := valueNames_mapSpans f entity.members
    rw [missingValues, missingValues, values, mapSpan_ite]
    rfl
  rw [entityFindings, entityFindings, conflicting, missing, List.map_append, List.map_append]
  refine congrArg (fun found => _ ++ found ++ _) (flatMap_withEarlier f ?_ entity.members)
  exact fun earlier member => memberFindings_mapSpans f entity earlier member

theorem declarationFindings_mapSpans : declarationFindings (Item.mapAllSpans f body) =
    (declarationFindings body).map (Finding.mapSpan f) := by
  have decls : (entityDecls (Item.mapAllSpans f body)).map (·.decl) =
      ((entityDecls body).map (·.decl)).map (EntityDecl.mapSpans f) := by
    rw [entityDecls_mapSpans, List.map_map, List.map_map]
    rfl
  unfold declarationFindings
  rw [decls]
  refine flatMap_withEarlier f (fun earlier entity => ?_) _
  have repeated : repeatedEntity (earlier.map (EntityDecl.mapSpans f)) (entity.mapSpans f) =
      (repeatedEntity earlier entity).map (Finding.mapSpan f) := by
    have names : (earlier.map (EntityDecl.mapSpans f)).map (·.name) = earlier.map (·.name) := by
      rw [List.map_map]
      rfl
    rw [repeatedEntity, repeatedEntity, names, mapSpan_ite]
    rfl
  dsimp only
  rw [entityFindings_mapSpans, repeated, List.map_append]

section Resolution

variable (names : List String)

theorem relationFindings_mapSpans (relations : List RelationDecl) :
    relationFindings names (relations.map (RelationDecl.mapSpans f)) =
      (relationFindings names relations).map (Finding.mapSpan f) := by
  simp only [relationFindings, List.flatMap_map, List.map_flatMap, List.map_map]
  rfl

theorem inheritanceFindings_mapSpans (entities : List EntityDecl) :
    inheritanceFindings (entities.map (EntityDecl.mapSpans f)) =
      (inheritanceFindings entities).map (Finding.mapSpan f) := by
  have same : ancestry (entities.map (EntityDecl.mapSpans f)) = ancestry entities := by
    rw [ancestry, ancestry, List.map_map]
    rfl
  simp only [inheritanceFindings, same, List.filter_map, List.map_map]
  rfl

theorem styleFindings_mapSpans (styles : List StyleDecl) :
    styleFindings names (styles.map (StyleDecl.mapSpans f)) =
      (styleFindings names styles).map (Finding.mapSpan f) := by
  simp only [styleFindings, List.filter_map, List.map_map]
  rfl

theorem kindFindings_mapSpans (kind : DiagramKind) (entities : List EntityDecl) :
    kindFindings kind (entities.map (EntityDecl.mapSpans f)) =
      (kindFindings kind entities).map (Finding.mapSpan f) := by
  simp only [kindFindings, List.filter_map, List.map_map]
  rfl

theorem layoutFindings_mapSpans (layouts : List LayoutDecl) :
    layoutFindings names (layouts.map (LayoutDecl.mapSpans f)) =
      (layoutFindings names layouts).map (Finding.mapSpan f) := by
  simp only [layoutFindings, List.filter_map, List.map_map]
  rfl

theorem extendsFindings_mapSpans (entities : List EntityDecl) :
    extendsFindings names (entities.map (EntityDecl.mapSpans f)) =
      (extendsFindings names entities).map (Finding.mapSpan f) := by
  simp only [extendsFindings, List.flatMap_map, List.map_flatMap, List.map_map]
  rfl

theorem implementsFindings_mapSpans (entities : List EntityDecl) :
    implementsFindings names (entities.map (EntityDecl.mapSpans f)) =
      (implementsFindings names entities).map (Finding.mapSpan f) := by
  simp only [implementsFindings, List.flatMap_map, List.map_flatMap, List.map_map]
  rfl

end Resolution

theorem resolutionFindings_mapSpans (kind : DiagramKind) :
    resolutionFindings kind (Item.mapAllSpans f body) =
      (resolutionFindings kind body).map (Finding.mapSpan f) := by
  have names : (keptEntities (Item.mapAllSpans f body)).keys = (keptEntities body).keys := by
    rw [keptEntities_mapSpans, OrderedMap.keys_mapValues]
  have entities : (keptEntities (Item.mapAllSpans f body)).entries.map (·.2.decl) =
      ((keptEntities body).entries.map (·.2.decl)).map (EntityDecl.mapSpans f) := by
    rw [keptEntities_mapSpans, OrderedMap.mapValues, List.map_map, List.map_map]
    rfl
  simp only [resolutionFindings, names, entities, relationDecls_mapSpans, styleDecls_mapSpans,
    layoutDecls_mapSpans, relationFindings_mapSpans, inheritanceFindings_mapSpans,
    styleFindings_mapSpans, kindFindings_mapSpans, layoutFindings_mapSpans,
    extendsFindings_mapSpans, implementsFindings_mapSpans, List.map_append]

theorem findings_mapSpans (program : Program) :
    findings (program.mapSpans f) = (findings program).map (Finding.mapSpan f) := by
  have each (decl : DiagramDecl) :
      diagramFindings (decl.mapSpans f) = (diagramFindings decl).map (Finding.mapSpan f) := by
    rw [diagramFindings, diagramFindings, List.map_append, ← resolutionFindings_mapSpans,
      ← declarationFindings_mapSpans]
    rfl
  simp only [findings, Program.mapSpans, List.flatMap_map, List.map_flatMap, each]

end Analysis

end

theorem meaning_of_bare_eq {program other : Program} (same : program.bare = other.bare) :
    Analysis.lower program = Analysis.lower other ∧
    (Analysis.findings program).map (·.violation) = (Analysis.findings other).map (·.violation) := by
  -- Each program has the meaning of its bare form, which is the same for both.
  have models := congrArg Analysis.lower same
  have found := congrArg (fun program => (Analysis.findings program).map (·.violation)) same
  simp only [Program.bare, Analysis.lower_mapSpans] at models
  simp only [Program.bare, Analysis.findings_mapSpans, List.map_map] at found
  exact ⟨models, found⟩

end ArchDiagram
