import ArchDiagram.Proofs.Sites.Body
import ArchDiagram.Proofs.WellFormed

/-!
The packages of the object model are those of the diagram: the same tree, and in each package the
names of the entities that stand directly in it. The records of the entities name their packages a
second time. Both say the same if no entity is declared twice.
-/

namespace ArchDiagram.Analysis

open Model (Package)

/-- An entity of the name stands directly in a body, as the item of the number. -/
def StandsAt (body : List Item) (i : Nat) (name : String) : Prop :=
  ∃ entity, body[i]? = some (.declaration (.entity entity)) ∧ entity.name = name

/-- An entity of the name stands there, and none before. -/
def StandsFirstAt (body : List Item) (i : Nat) (name : String) : Prop :=
  StandsAt body i name ∧ ∀ earlier < i, ¬ StandsAt body earlier name

/-- A list of packages has the packages of a body, with the packages inside them and with the names
of what stands directly in them. Declarations between the packages leave no trace. -/
inductive Mirrors : List Item → List Package → Prop
  | nil : Mirrors [] []
  | declaration {decl : Declaration} {rest : List Item} {others : List Package} :
      Mirrors rest others → Mirrors (.declaration decl :: rest) others
  | package {name : String} {body rest : List Item} {span : Span} {names : List String}
      {inner others : List Package} : Enumerates (StandsFirstAt body) names → Mirrors body inner →
      Mirrors rest others → Mirrors (.package name body span :: rest) (.mk name names inner :: others)

theorem eraseDups_eq_firstsBy (names : List String) : names.eraseDups = firstsBy id names := by
  -- From the back, where a name is kept if it is new.
  induction names using List.reverseRecOn with
  | nil => rfl
  | append_singleton names name ih =>
    rw [firstsBy_concat, List.eraseDups_append, ih, List.map_id, id]
    by_cases known : name ∈ names
    · simp [List.removeAll, known]
    · simp [List.removeAll, known, List.eraseDups_cons]

theorem enumerates_directOf (body : List Item) : Enumerates (StandsAt body) (directOf body) := by
  refine ((enumerates_list body).filterMap _).congr fun i name => ?_
  constructor
  · rintro ⟨item, there, named⟩
    split at named
    · exact ⟨_, there, Option.some.inj named⟩
    · cases named
  · rintro ⟨entity, there, named⟩
    exact ⟨_, there, congrArg some named⟩

theorem enumerates_directNames (body : List Item) :
    Enumerates (StandsFirstAt body) (directNames body) := by
  have same : directNames body = firstsBy id (directOf body) := eraseDups_eq_firstsBy _
  rw [same]
  refine ((enumerates_directOf body).firstsBy id).congr fun i name => and_congr_right fun _ => ?_
  constructor
  · exact fun first earlier less again => first earlier less name again rfl
  · intro first earlier less other again (same : other = name)
    exact first earlier less (same ▸ again)

theorem Mirrors.unique {body : List Item} {tree other : List Package} (mirrors : Mirrors body tree)
    (again : Mirrors body other) : tree = other := by
  induction mirrors generalizing other with
  | nil =>
    cases again
    rfl
  | declaration _ ih =>
    cases again with
    | declaration again => exact ih again
  | package names _ _ inside behind =>
    cases again with
    | package names' inner others => rw [names.unique names', inside inner, behind others]

mutual

theorem mirrors_itemPackages {rest : List Item} {others : List Package}
    (behind : Mirrors rest others) : (item : Item) →
    Mirrors (item :: rest) (itemPackages item ++ others)
  | .package _ body _ => .package (enumerates_directNames body) (mirrors_packages body) behind
  | .declaration _ => .declaration behind

theorem mirrors_packages : (body : List Item) → Mirrors body (packages body)
  | [] => .nil
  | item :: rest => mirrors_itemPackages (mirrors_packages rest) item

end

mutual

theorem listed_declared_item (package : Option String) : (item : Item) →
    ∀ listed ∈ Package.flatten (itemPackages item), ∀ name ∈ listed.entityNames,
      name ∈ (entitiesOf (itemOutline package item)).map (·.decl.name)
  | .package name body _ => by
    rw [itemPackages, Package.flatten, Package.within, Package.flatten, List.append_nil]
    refine List.forall_mem_cons.2 ⟨fun direct stands => ?_, listed_declared (some name) body⟩
    exact (directOf_sublist (some name) body).subset (List.mem_eraseDups.1 stands)
  | .declaration _ => fun _ absent => nomatch absent

theorem listed_declared (package : Option String) : (body : List Item) →
    ∀ listed ∈ Package.flatten (packages body), ∀ name ∈ listed.entityNames,
      name ∈ (entitiesOf (outline package body)).map (·.decl.name)
  | [] => fun _ absent => nomatch absent
  | item :: rest => by
    intro listed inside name stands
    rw [packages, Package.flatten_append, List.mem_append] at inside
    rw [outline, entitiesOf_append, List.map_append, List.mem_append]
    cases inside with
    | inl first => exact .inl (listed_declared_item package item listed first name stands)
    | inr later => exact .inr (listed_declared package rest listed later name stands)

end

theorem nodup_of_unrepeated {diagram : DiagramDecl}
    (unrepeated : ∀ finding ∈ diagramFindings diagram, finding.violation.rule ≠ .duplicateEntity) :
    ((entityDecls diagram.body).map (·.decl.name)).Nodup := by
  have distinct : (((entityDecls diagram.body).map (·.decl)).map (·.name)).Nodup := by
    refine nodup_map_of_withEarlier _ fun found entity inside known => ?_
    have reported : ⟨.duplicateEntity entity.name, entity.span⟩ ∈ repeatedEntity found entity := by
      rw [repeatedEntity, if_pos known]
      exact List.mem_singleton_self _
    have among : ⟨.duplicateEntity entity.name, entity.span⟩ ∈ declarationFindings diagram.body :=
      List.mem_flatMap.2 ⟨_, inside, List.mem_append_right _ reported⟩
    exact unrepeated _ (List.mem_append_left _ among) rfl
  rwa [List.map_map] at distinct

/-- The packages of the object model are exactly the tree that mirrors the packages of the diagram,
and every name listed in them is that of an entity. If no finding is about a repeated entity, then
an entity without a package is listed nowhere, and every other entity in one package alone, which
has the name of its own. -/
theorem packages_agree (diagram : DiagramDecl) :
    (∀ tree, Mirrors diagram.body tree ↔ tree = (lowerDiagram diagram).packages) ∧
    (∀ package ∈ Package.flatten (lowerDiagram diagram).packages,
      ∀ name ∈ package.entityNames, name ∈ (lowerDiagram diagram).entities.keys) ∧
    ((∀ finding ∈ diagramFindings diagram, finding.violation.rule ≠ .duplicateEntity) →
      ∀ name entity, (name, entity) ∈ (lowerDiagram diagram).entities.entries →
        (entity.package = none →
          ∀ package ∈ Package.flatten (lowerDiagram diagram).packages,
            name ∉ package.entityNames) ∧
        (∀ own, entity.package = some own →
          ∃ package : Package, package.name = own ∧
            (Package.flatten (lowerDiagram diagram).packages).filter (name ∈ ·.entityNames) =
              [package])) := by
  refine ⟨fun tree => ⟨fun mirrors => mirrors.unique (mirrors_packages diagram.body), ?_⟩, ?_, ?_⟩
  · rintro rfl
    exact mirrors_packages diagram.body
  · intro package inside name stands
    change name ∈ (entityMap diagram.body).keys
    rw [keys_entityMap, (keeps_keptEntities diagram.body).mem_keys]
    exact listed_declared none diagram.body package inside name stands
  · intro unrepeated name entity member
    obtain ⟨placed, declared, named, note, place, styles, same⟩ := mem_entityMap member
    have owner : entity.package = placed.package := congrArg Model.Entity.package same
    have listed := listing_packages (nodup_of_unrepeated unrepeated) declared
    rw [← named, ← owner] at listed
    constructor
    · intro none_ package inside stands
      rw [none_, Option.toList_none, Package.listing, List.map_eq_nil_iff,
        List.filter_eq_nil_iff] at listed
      exact listed package inside (decide_eq_true stands)
    · intro own some_
      rw [some_, Option.toList_some, Package.listing, List.map_eq_singleton_iff] at listed
      obtain ⟨package, only, same⟩ := listed
      exact ⟨package, same, only⟩

/-- A package inside one of its own name, and an entity beside both. -/
theorem packages_agree_nested :
    let span : Span := ⟨.start, 0⟩
    let entity (name : String) : EntityDecl := ⟨[], .classType, name, none, [], [], [], span⟩
    let item (name : String) : Item := .declaration (.entity (entity name))
    let diagram : DiagramDecl := ⟨"d", .classes,
      [.package "p" [item "A", .package "p" [item "B"] span] span, item "C"], span⟩
    let packages := Package.flatten (lowerDiagram diagram).packages
    (∀ finding ∈ diagramFindings diagram, finding.violation.rule ≠ .duplicateEntity) ∧
      (∃ package : Package, package.name = "p" ∧
        packages.filter ("B" ∈ ·.entityNames) = [package]) ∧
      ∀ package ∈ packages, "C" ∉ package.entityNames := by
  intro span entity item diagram packages
  have unrepeated : ∀ finding ∈ diagramFindings diagram,
      finding.violation.rule ≠ .duplicateEntity := by decide +kernel
  have within : ("B", lowerEntity ⟨some "p", entity "B"⟩) ∈
      (lowerDiagram diagram).entities.entries := by decide +kernel
  have outside : ("C", lowerEntity ⟨none, entity "C"⟩) ∈
      (lowerDiagram diagram).entities.entries := by decide +kernel
  obtain ⟨-, -, agree⟩ := packages_agree diagram
  exact ⟨unrepeated, (agree unrepeated _ _ within).2 "p" rfl, (agree unrepeated _ _ outside).1 rfl⟩

end ArchDiagram.Analysis
