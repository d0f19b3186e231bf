import ArchDiagram.Analysis.Lowering
import Mathlib.Data.List.Nodup
import Mathlib.Data.List.Perm.Basic

/-!
Packages and the entities in them. The object model lists the entities of a package by name, the
outline of a diagram gives every entity its package. Where no name is declared twice, both say the
same of each entity.
-/

namespace ArchDiagram

namespace Model.Package

def name : Package → String
  | mk name _ _ => name

def entityNames : Package → List String
  | mk _ names _ => names

mutual

def within : Package → List Package
  | mk name names subPackages => mk name names subPackages :: flatten subPackages

def flatten : List Package → List Package
  | [] => []
  | package :: rest => package.within ++ flatten rest

end

theorem flatten_append (xs ys : List Package) : flatten (xs ++ ys) = flatten xs ++ flatten ys := by
  induction xs with
  | nil => rfl
  | cons package rest ih => rw [List.cons_append, flatten, ih, flatten, List.append_assoc]

/-- The names of the packages that list an entity, one for each of them. -/
def listing (packages : List Package) (entity : String) : List String :=
  ((flatten packages).filter (entity ∈ ·.entityNames)).map (·.name)

theorem listing_append (xs ys : List Package) (entity : String) :
    listing (xs ++ ys) entity = listing xs entity ++ listing ys entity := by
  rw [listing, flatten_append, List.filter_append, List.map_append]
  rfl

theorem listing_mk (name : String) (names : List String) (subPackages : List Package)
    (entity : String) : listing [mk name names subPackages] entity =
      (if entity ∈ names then [name] else []) ++ listing subPackages entity := by
  rw [listing, flatten, within, flatten, List.append_nil, List.filter_cons]
  by_cases inside : entity ∈ names
  · simp [entityNames, inside, Package.name, listing]
  · simp [entityNames, inside, listing]

end Model.Package

namespace Analysis

open Model.Package (listing)

def entitiesOf (placed : List (Placed Declaration)) : List (Placed EntityDecl) :=
  placed.filterMap fun placed =>
    match placed.decl with
    | .entity decl => some ⟨placed.package, decl⟩
    | _ => none

theorem entityDecls_eq (body : List Item) : entityDecls body = entitiesOf (outline none body) := rfl

/-- The names of the entities that stand directly in a list of items, as often as they do. -/
def directOf (body : List Item) : List String :=
  body.filterMap fun | .declaration (.entity decl) => some decl.name | _ => none

theorem directOf_append (xs ys : List Item) : directOf (xs ++ ys) = directOf xs ++ directOf ys :=
  List.filterMap_append

theorem entitiesOf_append (xs ys : List (Placed Declaration)) :
    entitiesOf (xs ++ ys) = entitiesOf xs ++ entitiesOf ys := List.filterMap_append

theorem directOf_sublist (package : Option String) (body : List Item) :
    (directOf body).Sublist ((entitiesOf (outline package body)).map (·.decl.name)) := by
  induction body with
  | nil => exact .slnil
  | cons item rest ih =>
    rw [← List.singleton_append, directOf_append, List.singleton_append, outline,
      entitiesOf_append, List.map_append]
    refine List.Sublist.append ?_ ih
    cases item with
    | package => exact List.nil_sublist _
    | declaration decl =>
      cases decl with
      | entity => exact List.Sublist.refl _
      | _ => exact List.nil_sublist _

def packagesOf (placed : List (Placed EntityDecl)) (entity : String) : List (Option String) :=
  (placed.filter (·.decl.name = entity)).map (·.package)

theorem packagesOf_append (xs ys : List (Placed EntityDecl)) (entity : String) :
    packagesOf (xs ++ ys) entity = packagesOf xs entity ++ packagesOf ys entity := by
  rw [packagesOf, List.filter_append, List.map_append]
  rfl

theorem filter_of_nodup {names : List String} (distinct : names.Nodup) (name : String) :
    names.filter (· = name) = if name ∈ names then [name] else [] := by
  have same : names.filter (· = name) = List.replicate (names.count name) name :=
    List.filter_eq name
  rw [same, distinct.count]
  split <;> rfl

mutual

theorem perm_packagesOf_item (package : Option String) (entity : String) : (item : Item) →
    ((entitiesOf (itemOutline package item)).map (·.decl.name)).Nodup →
    (packagesOf (entitiesOf (itemOutline package item)) entity).Perm
      (((directOf [item]).filter (· = entity)).map (fun _ => package) ++
        (listing (itemPackages item) entity).map some)
  | .package name body _, distinct => by
    have inside := perm_packagesOf (some name) entity body distinct
    have direct := distinct.sublist (directOf_sublist (some name) body)
    have same : entity ∈ directNames body ↔ entity ∈ directOf body := List.mem_eraseDups
    -- A package lists a name once, however often it is declared there: without repeats, as often.
    rw [filter_of_nodup direct] at inside
    rw [itemPackages, Model.Package.listing_mk]
    by_cases stands : entity ∈ directOf body
    · rw [if_pos stands] at inside
      rw [if_pos (same.2 stands)]
      exact inside
    · rw [if_neg stands] at inside
      rw [if_neg (mt same.1 stands)]
      exact inside
  | .declaration decl, _ => by
    cases decl with
    | entity decl =>
      by_cases same : decl.name = entity
      · simp [packagesOf, entitiesOf, itemOutline, directOf, itemPackages, same, listing,
          Model.Package.flatten]
      · simp [packagesOf, entitiesOf, itemOutline, directOf, itemPackages, same, listing,
          Model.Package.flatten]
    | _ => exact .nil

theorem perm_packagesOf (package : Option String) (entity : String) : (body : List Item) →
    ((entitiesOf (outline package body)).map (·.decl.name)).Nodup →
    (packagesOf (entitiesOf (outline package body)) entity).Perm
      (((directOf body).filter (· = entity)).map (fun _ => package) ++
        (listing (packages body) entity).map some)
  | [], _ => .nil
  | item :: rest, distinct => by
    rw [outline, entitiesOf_append, List.map_append] at distinct
    have first := perm_packagesOf_item package entity item distinct.of_append_left
    have others := perm_packagesOf package entity rest distinct.of_append_right
    rw [outline, entitiesOf_append, packagesOf_append, packages, Model.Package.listing_append,
      ← List.singleton_append, directOf_append, List.filter_append, List.map_append,
      List.map_append]
    refine (first.append others).trans ?_
    rw [List.append_assoc, List.append_assoc]
    exact (List.perm_append_comm_assoc _ _ _).append_left _

end

theorem packagesOf_eq {found : List (Placed EntityDecl)} {placed : Placed EntityDecl}
    (distinct : (found.map (·.decl.name)).Nodup) (member : placed ∈ found) :
    packagesOf found placed.decl.name = [placed.package] := by
  obtain ⟨before, after, rfl⟩ := List.append_of_mem member
  rw [List.map_append, List.map_cons, List.nodup_append] at distinct
  obtain ⟨-, rest, apart⟩ := distinct
  have none_ {list : List (Placed EntityDecl)} (other : ∀ x ∈ list, x.decl.name ≠ placed.decl.name) :
      list.filter (·.decl.name = placed.decl.name) = [] := by
    simpa using other
  have front : ∀ x ∈ before, x.decl.name ≠ placed.decl.name := fun x inside =>
    apart _ (List.mem_map_of_mem inside) _ List.mem_cons_self
  have back : ∀ x ∈ after, x.decl.name ≠ placed.decl.name := by
    intro x inside same
    exact (List.nodup_cons.1 rest).1 (same ▸ List.mem_map_of_mem inside)
  rw [packagesOf, List.filter_append, none_ front, List.filter_cons_of_pos (by simp), none_ back]
  rfl

/-- An entity is listed by the package that it has, and by no other. -/
theorem listing_packages {body : List Item} {placed : Placed EntityDecl}
    (distinct : ((entityDecls body).map (·.decl.name)).Nodup) (member : placed ∈ entityDecls body) :
    listing (packages body) placed.decl.name = placed.package.toList := by
  have agree := perm_packagesOf none placed.decl.name body distinct
  rw [← entityDecls_eq, packagesOf_eq distinct member, List.singleton_perm] at agree
  generalize (directOf body).filter (· = placed.decl.name) = direct at agree
  generalize listing (packages body) placed.decl.name = listed at agree ⊢
  -- The one declaration stands directly in the body, or one package lists it.
  cases direct with
  | nil =>
    cases listed with
    | nil => cases agree
    | cons name more =>
      simp only [List.map_nil, List.nil_append, List.map_cons, List.cons.injEq,
        List.nil_eq, List.map_eq_nil_iff] at agree
      rw [agree.1, agree.2]
      rfl
  | cons name more =>
    simp only [List.map_cons, List.cons_append, List.cons.injEq, List.nil_eq,
      List.append_eq_nil_iff, List.map_eq_nil_iff] at agree
    rw [agree.1, agree.2.2]
    rfl

end Analysis

end ArchDiagram
