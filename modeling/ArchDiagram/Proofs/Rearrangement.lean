import ArchDiagram.Proofs.Sites.Body
import ArchDiagram.Proofs.Packages

/-!
What the analysis sees of the arrangement of a diagram: the order within each kind of item. Without
its packages a diagram has the same findings and the same records, only that no entity is in a
package. With the items of each kind in the same order, entities and packages in the same packages as
before, everything is the same.
-/

namespace ArchDiagram.Analysis

mutual

def unpackedItem : Item → List Item
  | .package _ body _ => unpacked body
  | .declaration decl => [.declaration decl]

/-- A body with every package replaced by its items, at its place, down to the innermost. -/
def unpacked : List Item → List Item
  | [] => []
  | item :: rest => unpackedItem item ++ unpacked rest

end

def Placed.outside {α : Type} (placed : Placed α) : Placed α := ⟨none, placed.decl⟩

theorem outline_append (package : Option String) (body more : List Item) :
    outline package (body ++ more) = outline package body ++ outline package more := by
  induction body with
  | nil => rfl
  | cons item rest ih => rw [List.cons_append, outline, ih, outline, List.append_assoc]

mutual

theorem outline_unpackedItem (package : Option String) : (item : Item) →
    outline none (unpackedItem item) = (itemOutline package item).map Placed.outside
  | .package name body _ => by rw [unpackedItem, itemOutline, outline_unpacked (some name) body]
  | .declaration _ => rfl

theorem outline_unpacked (package : Option String) : (body : List Item) →
    outline none (unpacked body) = (outline package body).map Placed.outside
  | [] => rfl
  | item :: rest => by
    rw [unpacked, outline_append, outline_unpackedItem package item, outline_unpacked package rest,
      outline, List.map_append]

end

section Unpacked

variable (body : List Item)

theorem entityDecls_unpacked :
    entityDecls (unpacked body) = (entityDecls body).map Placed.outside := by
  rw [entityDecls, declarations, outline_unpacked none]
  refine filterMap_map_comm (fun placed => ?_) _
  obtain ⟨package, decl⟩ := placed
  cases decl <;> rfl

theorem chosen_unpacked {α : Type} {choose : Placed Declaration → Option α}
    (same : ∀ placed, choose placed.outside = choose placed) :
    (declarations (unpacked body)).filterMap choose = (declarations body).filterMap choose := by
  rw [declarations, outline_unpacked none, List.filterMap_map]
  exact congrArg (List.filterMap · _) (funext same)

theorem relationDecls_unpacked : relationDecls (unpacked body) = relationDecls body :=
  chosen_unpacked body fun _ => rfl

theorem noteDecls_unpacked : noteDecls (unpacked body) = noteDecls body :=
  chosen_unpacked body fun _ => rfl

theorem styleDecls_unpacked : styleDecls (unpacked body) = styleDecls body :=
  chosen_unpacked body fun _ => rfl

theorem layoutDecls_unpacked : layoutDecls (unpacked body) = layoutDecls body :=
  chosen_unpacked body fun _ => rfl

theorem keptEntities_unpacked : keptEntities (unpacked body) =
    (keptEntities body).mapValues fun _ => Placed.outside := by
  have named (placed : Placed EntityDecl) : placed.outside.decl.name = placed.decl.name := rfl
  rw [keptEntities_eq, keptEntities_eq, entityDecls_unpacked]
  exact keepFirst_map named _

theorem entityMap_unpacked : entityMap (unpacked body) =
    (entityMap body).mapValues fun _ entity => { entity with package := none } := by
  simp only [entityMap, keptEntities_unpacked, noteDecls_unpacked, layoutDecls_unpacked,
    styleDecls_unpacked, OrderedMap.mapValues_mapValues]
  rfl

theorem declarationFindings_unpacked :
    declarationFindings (unpacked body) = declarationFindings body := by
  rw [declarationFindings, entityDecls_unpacked, List.map_map]
  rfl

theorem resolutionFindings_unpacked (kind : DiagramKind) :
    resolutionFindings kind (unpacked body) = resolutionFindings kind body := by
  have entities : (keptEntities (unpacked body)).entries.map (·.2.decl) =
      (keptEntities body).entries.map (·.2.decl) := by
    rw [keptEntities_unpacked, OrderedMap.mapValues, List.map_map]
    rfl
  have names : (keptEntities (unpacked body)).keys = (keptEntities body).keys := by
    rw [keptEntities_unpacked, OrderedMap.keys_mapValues]
  simp only [resolutionFindings, entities, names, relationDecls_unpacked, styleDecls_unpacked,
    layoutDecls_unpacked]

end Unpacked

def entitiesAmong (found : List (House × Declaration)) : List (House × EntityDecl) :=
  found.filterMap fun (house, decl) =>
    match decl with
    | .entity entity => some (house, entity)
    | _ => none

theorem entitiesAmong_append (found more : List (House × Declaration)) :
    entitiesAmong (found ++ more) = entitiesAmong found ++ entitiesAmong more :=
  List.filterMap_append

def namesAt (found : List (House × EntityDecl)) (house : House) : List String :=
  (found.filter (·.1 = house)).map (·.2.name)

theorem namesAt_append (found more : List (House × EntityDecl)) (house : House) :
    namesAt (found ++ more) house = namesAt found house ++ namesAt more house := by
  rw [namesAt, List.filter_append, List.map_append]
  rfl

theorem enumerates_entitiesAmong (body : List Item) : Enumerates
    (fun path (p : House × EntityDecl) => HousedAt body path p.1 (.entity p.2))
    (entitiesAmong (housed 0 body)) := by
  refine ((enumerates_housed body).filterMap _).congr fun path p => ?_
  constructor
  · rintro ⟨⟨house, decl⟩, stands, chosen⟩
    cases decl with
    | entity entity =>
      cases chosen
      exact stands
    | _ => cases chosen
  · exact fun stands => ⟨(p.1, .entity p.2), stands, rfl⟩

theorem entityDecls_eq_map (body : List Item) : entityDecls body =
    (entitiesAmong (housed 0 body)).map fun (house, entity) =>
      ⟨House.innermost none house, entity⟩ := by
  rw [entityDecls, declarations, outline_eq_map none 0 body]
  refine filterMap_map_comm (fun found => ?_) _
  obtain ⟨house, decl⟩ := found
  cases decl <;> rfl

mutual

def itemSkeleton : Item → List Item
  | .package name body span => [.package name (skeleton body) span]
  | .declaration _ => []

/-- The packages of a body alone, with those inside them. -/
def skeleton : List Item → List Item
  | [] => []
  | item :: rest => itemSkeleton item ++ skeleton rest

end

mutual

def itemFilled (names : House → List String) (number : Nat) : Item → List Model.Package
  | .package name body _ =>
    [.mk name (names [(number, name)]).eraseDups
      (filled (fun house => names ((number, name) :: house)) 0 body)]
  | .declaration _ => []

/-- Packages that list the given names, house by house. -/
def filled (names : House → List String) (number : Nat) : List Item → List Model.Package
  | [] => []
  | item :: rest =>
    itemFilled names number item ++ filled names (number + if isPackage item then 1 else 0) rest

end

/-- The names in the houses of a body, whose packages are counted from the given number. -/
def namesIn (number : Nat) (body : List Item) (house : House) : List String :=
  namesAt (entitiesAmong (housed number body)) house

theorem namesIn_cons (number : Nat) (item : Item) (rest : List Item) (house : House) :
    namesIn number (item :: rest) house = namesAt (entitiesAmong (itemHoused number item)) house ++
      namesIn (number + if isPackage item then 1 else 0) rest house := by
  rw [namesIn, housed, entitiesAmong_append, namesAt_append]
  rfl

theorem entitiesAmong_package (number : Nat) (name : String) (body : List Item) (span : Span) :
    entitiesAmong (itemHoused number (.package name body span)) =
      (entitiesAmong (housed 0 body)).map fun (house, entity) =>
        ((number, name) :: house, entity) := by
  refine filterMap_map_comm (fun found => ?_) _
  obtain ⟨house, decl⟩ := found
  cases decl <;> rfl

theorem namesIn_declaration (number : Nat) (decl : Declaration) (rest : List Item)
    (outer : Nat × String) (house : House) :
    namesIn number (.declaration decl :: rest) (outer :: house) =
      namesIn number rest (outer :: house) := by
  rw [namesIn_cons]
  cases decl <;> rfl

theorem namesIn_package (number : Nat) (name : String) (body : List Item) (span : Span)
    (rest : List Item) (outer : Nat × String) (house : House) :
    namesIn number (.package name body span :: rest) (outer :: house) =
      (if (number, name) = outer then namesIn 0 body house else []) ++
        namesIn (number + 1) rest (outer :: house) := by
  rw [namesIn_cons, entitiesAmong_package, namesAt, List.filter_map, List.map_map]
  refine congrArg (· ++ namesIn (number + 1) rest (outer :: house)) ?_
  by_cases same : (number, name) = outer
  · simp [Function.comp_def, same, namesIn, namesAt]
  · simp [Function.comp_def, same]

theorem namesIn_nil (number : Nat) (body : List Item) : namesIn number body [] = directOf body := by
  induction body generalizing number with
  | nil => rfl
  | cons item rest ih =>
    rw [namesIn_cons, ih, ← List.singleton_append, directOf_append]
    refine congrArg (· ++ directOf rest) ?_
    cases item with
    | declaration decl => cases decl <;> rfl
    | package name body span =>
      rw [entitiesAmong_package, namesAt, List.filter_map]
      simp [Function.comp_def, directOf]

theorem namesIn_of_lt {number : Nat} {outer : Nat × String} (less : outer.1 < number)
    (house : House) (body : List Item) : namesIn number body (outer :: house) = [] := by
  induction body generalizing number with
  | nil => rfl
  | cons item rest ih =>
    cases item with
    | declaration decl => rw [namesIn_declaration, ih less]
    | package name body span =>
      rw [namesIn_package, ih (Nat.lt_succ_of_lt less), if_neg, List.append_nil]
      rintro rfl
      exact absurd less (Nat.lt_irrefl number)

/-- The packages of a body are its packages alone, filled with the names of the entities in them. Only
names in houses that are still ahead are asked for. -/
theorem packages_eq_filled (names : House → List String) (number : Nat) : (body : List Item) →
    (∀ outer house, number ≤ outer.1 →
      names (outer :: house) = namesIn number body (outer :: house)) →
    packages body = filled names number (skeleton body)
  | [], _ => rfl
  | .declaration decl :: rest, same => by
    refine packages_eq_filled names number rest fun outer house later => ?_
    rw [same outer house later, namesIn_declaration]
  | .package name body span :: rest, same => by
    -- The house of this package is found in it and, since numbers go up, nowhere behind it.
    have inside (house : House) : names ((number, name) :: house) = namesIn 0 body house := by
      rw [same (number, name) house (Nat.le_refl number), namesIn_package, if_pos rfl,
        namesIn_of_lt (Nat.lt_succ_self number), List.append_nil]
    have sub : packages body =
        filled (fun house => names ((number, name) :: house)) 0 (skeleton body) :=
      packages_eq_filled _ 0 body fun outer house _ => inside (outer :: house)
    have behind : packages rest = filled names (number + 1) (skeleton rest) := by
      refine packages_eq_filled names (number + 1) rest fun outer house later => ?_
      rw [same outer house (Nat.le_of_succ_le later), namesIn_package, if_neg, List.nil_append]
      rintro rfl
      exact absurd later (Nat.not_succ_le_self number)
    have whole : filled names number (skeleton (.package name body span :: rest)) =
        .mk name (names [(number, name)]).eraseDups
          (filled (fun house => names ((number, name) :: house)) 0 (skeleton body)) ::
        filled names (number + 1) (skeleton rest) := rfl
    rw [whole, inside, namesIn_nil, ← sub, ← behind]
    rfl

def SameOrder {α : Type} (stands : List Item → List Nat → α → Prop) (body other : List Item) :
    Prop :=
  ∃ list, Enumerates (stands body) list ∧ Enumerates (stands other) list

/-- The items of a body in another arrangement. Packages keep their order and their nesting, and
entities their order and the packages around them. All other declarations keep their order among
those of their kind, wherever they stand. -/
structure Rearranged (body other : List Item) : Prop where
  packages : skeleton other = skeleton body
  entities : SameOrder (fun body path (p : House × EntityDecl) =>
    HousedAt body path p.1 (.entity p.2)) body other
  relations : SameOrder (fun body path decl => DeclaredAt body path (.relation decl)) body other
  notes : SameOrder (fun body path decl => DeclaredAt body path (.note decl)) body other
  styles : SameOrder (fun body path decl => DeclaredAt body path (.style decl)) body other
  layouts : SameOrder (fun body path decl => DeclaredAt body path (.layout decl)) body other

theorem SameOrder.eq {α : Type} {stands : List Item → List Nat → α → Prop} {body other : List Item}
    (same : SameOrder stands body other) {found : List Item → List α}
    (listed : ∀ body, Enumerates (stands body) (found body)) : found other = found body := by
  obtain ⟨list, here, there⟩ := same
  rw [(listed other).unique there, (listed body).unique here]

namespace Rearranged

variable {body other : List Item} (moved : Rearranged body other)

include moved

theorem housedEntities_eq :
    entitiesAmong (housed 0 other) = entitiesAmong (housed 0 body) :=
  moved.entities.eq enumerates_entitiesAmong

theorem entityDecls_eq : entityDecls other = entityDecls body := by
  rw [entityDecls_eq_map, entityDecls_eq_map, moved.housedEntities_eq]

theorem relationDecls_eq : relationDecls other = relationDecls body :=
  moved.relations.eq enumerates_relations

theorem noteDecls_eq : noteDecls other = noteDecls body := moved.notes.eq enumerates_notes

theorem styleDecls_eq : styleDecls other = styleDecls body := moved.styles.eq enumerates_styles

theorem layoutDecls_eq : layoutDecls other = layoutDecls body := moved.layouts.eq enumerates_layouts

theorem packages_eq : Analysis.packages other = Analysis.packages body := by
  -- Both are filled with the names of the one body, since the entities are in the same houses.
  rw [packages_eq_filled (namesIn 0 body) 0 body fun _ _ _ => rfl,
    packages_eq_filled (namesIn 0 body) 0 other, moved.packages]
  intro outer house _
  rw [namesIn, namesIn, moved.housedEntities_eq]

theorem lowerDiagram_eq (name : String) (kind : DiagramKind) (span : Span) :
    lowerDiagram ⟨name, kind, other, span⟩ = lowerDiagram ⟨name, kind, body, span⟩ := by
  simp only [lowerDiagram, entityMap, keptEntities_eq, moved.entityDecls_eq, moved.relationDecls_eq,
    moved.noteDecls_eq, moved.styleDecls_eq, moved.layoutDecls_eq, moved.packages_eq]

theorem diagramFindings_eq (name : String) (kind : DiagramKind) (span : Span) :
    diagramFindings ⟨name, kind, other, span⟩ = diagramFindings ⟨name, kind, body, span⟩ := by
  simp only [diagramFindings, declarationFindings, resolutionFindings, keptEntities_eq,
    moved.entityDecls_eq, moved.relationDecls_eq, moved.styleDecls_eq, moved.layoutDecls_eq]

end Rearranged

/-- The analysis sees only the order within each kind of item. Without its packages a diagram has the
same findings, relations and notes, and the same entities apart from their packages. In another
arrangement that keeps these orders it is the same diagram with the same findings. -/
theorem arrangement_irrelevant (diagram : DiagramDecl) :
    (let flat : DiagramDecl := { diagram with body := unpacked diagram.body }
     diagramFindings flat = diagramFindings diagram ∧
      (lowerDiagram flat).relations = (lowerDiagram diagram).relations ∧
      (lowerDiagram flat).notes = (lowerDiagram diagram).notes ∧
      (lowerDiagram flat).entities = (lowerDiagram diagram).entities.mapValues
        fun _ entity => { entity with package := none }) ∧
    ∀ other, Rearranged diagram.body other →
      lowerDiagram { diagram with body := other } = lowerDiagram diagram ∧
      diagramFindings { diagram with body := other } = diagramFindings diagram := by
  obtain ⟨name, kind, body, span⟩ := diagram
  -- Without packages every listing is the same but for the packages that entities are given.
  refine ⟨⟨?_, ?_, ?_, ?_⟩, fun other moved => ?_⟩
  · simp only [diagramFindings, declarationFindings_unpacked, resolutionFindings_unpacked]
  · simp only [lowerDiagram, relationDecls_unpacked]
  · simp only [lowerDiagram, noteDecls_unpacked]
  · exact entityMap_unpacked body
  · exact ⟨moved.lowerDiagram_eq name kind span, moved.diagramFindings_eq name kind span⟩

/-- A style, a note and a package without entities move across packages and past an entity. -/
theorem arrangement_irrelevant_across :
    let span : Span := ⟨.start, 0⟩
    let entity (name : String) : Item :=
      .declaration (.entity ⟨[], .classType, name, none, [], [], [], span⟩)
    let note : Item := .declaration (.note ⟨"n", some "A", span⟩)
    let style : Item := .declaration (.style ⟨"B", .ofList [("fill", "red")], span⟩)
    let body := [note, .package "p" [entity "A", .package "q" [style] span] span, entity "B"]
    let other := [style, .package "p" [.package "q" [] span, entity "A", note] span, entity "B"]
    Rearranged body other ∧
    lowerDiagram ⟨"d", .classes, other, span⟩ = lowerDiagram ⟨"d", .classes, body, span⟩ := by
  intro span entity note style body other
  have moved : Rearranged body other :=
    { packages := rfl
      entities := ⟨_, enumerates_entitiesAmong body, enumerates_entitiesAmong other⟩
      relations := ⟨_, enumerates_relations body, enumerates_relations other⟩
      notes := ⟨_, enumerates_notes body, enumerates_notes other⟩
      styles := ⟨_, enumerates_styles body, enumerates_styles other⟩
      layouts := ⟨_, enumerates_layouts body, enumerates_layouts other⟩ }
  exact ⟨moved, ((arrangement_irrelevant ⟨"d", .classes, body, span⟩).2 other moved).1⟩

end ArchDiagram.Analysis
