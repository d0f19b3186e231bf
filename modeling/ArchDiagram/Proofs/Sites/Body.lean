import ArchDiagram.Proofs.Sites

/-!
The declarations of a diagram and where they stand. The path of a declaration is the number of its
item, below the numbers of the packages around it, so paths in their order are the declarations in
document order.
-/

namespace ArchDiagram.Analysis

/-- The packages around a declaration, the outermost first: each with its number among the packages
beside it, and with its name. -/
abbrev House := List (Nat × String)

def isPackage : Item → Bool
  | .package _ _ _ => true
  | .declaration _ => false

mutual

/-- A declaration stands in an item, behind the given numbers of items inside it. The number of the
item itself is that among packages. -/
inductive HousedIn : Nat → Item → List Nat → House → Declaration → Prop
  | here {number : Nat} {decl : Declaration} : HousedIn number (.declaration decl) [] [] decl
  | inside {number : Nat} {name : String} {body : List Item} {span : Span} {path : List Nat}
      {house : House} {decl : Declaration} : HousedAt body path house decl →
      HousedIn number (.package name body span) path ((number, name) :: house) decl

/-- A declaration stands in a body: its path is the number of an item, and the path inside it. -/
inductive HousedAt : List Item → List Nat → House → Declaration → Prop
  | item {body : List Item} {i : Nat} {item : Item} {path : List Nat} {house : House}
      {decl : Declaration} : body[i]? = some item →
      HousedIn ((body.take i).countP isPackage) item path house decl →
      HousedAt body (i :: path) house decl

end

def DeclaredAt (body : List Item) (path : List Nat) (decl : Declaration) : Prop :=
  ∃ house, HousedAt body path house decl

mutual

def itemHoused (number : Nat) : Item → List (House × Declaration)
  | .package name body _ => (housed 0 body).map fun (house, decl) => ((number, name) :: house, decl)
  | .declaration decl => [([], decl)]

def housed (number : Nat) : List Item → List (House × Declaration)
  | [] => []
  | item :: rest => itemHoused number item ++ housed (number + if isPackage item then 1 else 0) rest

end

theorem housed_eq_flatMap (body : List Item) : housed 0 body =
    (withEarlier body).flatMap fun (earlier, item) =>
      itemHoused (earlier.countP isPackage) item := by
  have from_ (earlier : List Item) : housed (earlier.countP isPackage) body =
      (withEarlierFrom earlier body).flatMap fun (earlier, item) =>
        itemHoused (earlier.countP isPackage) item := by
    induction body generalizing earlier with
    | nil => rfl
    | cons item rest ih =>
      rw [housed, withEarlierFrom, List.flatMap_cons, ← ih, List.countP_cons]
  exact from_ []

theorem enumerates_housed_of {body : List Item}
    (each : ∀ item ∈ body, ∀ number, Enumerates
      (fun path (p : House × Declaration) => HousedIn number item path p.1 p.2)
      (itemHoused number item)) :
    Enumerates (fun path (p : House × Declaration) => HousedAt body path p.1 p.2)
      (housed 0 body) := by
  rw [housed_eq_flatMap]
  refine (enumerates_numbered body _ (fun i item path (p : House × Declaration) =>
    HousedIn ((body.take i).countP isPackage) item path p.1 p.2) fun i item there => ?_).congr ?_
  · have listed := each item (List.mem_of_getElem? there) ((body.take i).countP isPackage)
    rwa [← List.countP_reverse] at listed ⊢
  · intro path p
    constructor
    · rintro ⟨i, rest, item, rfl, there, stands⟩
      exact .item there stands
    · intro stands
      cases stands with
      | item there stands => exact ⟨_, _, _, rfl, there, stands⟩

mutual

theorem enumerates_itemHoused : (item : Item) → (number : Nat) → Enumerates
    (fun path (p : House × Declaration) => HousedIn number item path p.1 p.2)
    (itemHoused number item)
  | .package name body span, number => by
    refine ((enumerates_housed_of (enumerates_itemsHoused body)).map _).congr fun path p => ?_
    constructor
    · rintro ⟨q, stands, rfl⟩
      exact .inside stands
    · obtain ⟨house, decl⟩ := p
      intro stands
      cases stands with
      | inside stands => exact ⟨(_, _), stands, rfl⟩
  | .declaration decl, number => by
    refine ⟨[([], [], decl)], rfl, List.pairwise_singleton .., fun path p => ?_⟩
    constructor
    · intro member
      cases List.mem_singleton.1 member
      exact .here
    · obtain ⟨house, other⟩ := p
      intro stands
      cases stands with
      | here => exact List.mem_singleton_self _

theorem enumerates_itemsHoused : (body : List Item) → ∀ item ∈ body, ∀ number, Enumerates
    (fun path (p : House × Declaration) => HousedIn number item path p.1 p.2)
    (itemHoused number item)
  | [] => fun _ absent => nomatch absent
  | item :: rest => List.forall_mem_cons.2
    ⟨enumerates_itemHoused item, enumerates_itemsHoused rest⟩

end

def House.innermost (package : Option String) : House → Option String
  | [] => package
  | (_, name) :: house => innermost (some name) house

mutual

theorem itemOutline_eq_map (package : Option String) (number : Nat) : (item : Item) →
    itemOutline package item = (itemHoused number item).map fun (house, decl) =>
      ⟨House.innermost package house, decl⟩
  | .package name body _ => by
    rw [itemOutline, outline_eq_map (some name) 0 body, itemHoused, List.map_map]
    rfl
  | .declaration _ => rfl

theorem outline_eq_map (package : Option String) (number : Nat) : (body : List Item) →
    outline package body = (housed number body).map fun (house, decl) =>
      ⟨House.innermost package house, decl⟩
  | [] => rfl
  | item :: rest => by
    rw [outline, housed, List.map_append, itemOutline_eq_map package number item,
      outline_eq_map package _ rest]

end

section Body

variable (body : List Item)

theorem enumerates_housed : Enumerates
    (fun path (p : House × Declaration) => HousedAt body path p.1 p.2) (housed 0 body) :=
  enumerates_housed_of (enumerates_itemsHoused body)

theorem enumerates_declarations :
    Enumerates (DeclaredAt body) ((declarations body).map (·.decl)) := by
  rw [declarations, outline_eq_map none 0 body, List.map_map]
  refine ((enumerates_housed body).map _).congr fun path decl => ?_
  constructor
  · rintro ⟨⟨house, _⟩, stands, rfl⟩
    exact ⟨house, stands⟩
  · rintro ⟨house, stands⟩
    exact ⟨(house, decl), stands, rfl⟩

theorem enumerates_chosen {α : Type} {choose : Placed Declaration → Option α}
    {make : α → Declaration}
    (inverse : ∀ package decl x, choose ⟨package, decl⟩ = some x ↔ decl = make x) :
    Enumerates (fun path x => DeclaredAt body path (make x))
      ((declarations body).filterMap choose) := by
  have same : choose = (fun decl => choose ⟨none, decl⟩) ∘ Placed.decl := by
    funext placed
    refine Option.ext fun x => ?_
    exact (inverse placed.package placed.decl x).trans (inverse none placed.decl x).symm
  rw [same, ← List.filterMap_map]
  refine ((enumerates_declarations body).filterMap _).congr fun path x => ?_
  simp [inverse]

theorem enumerates_entities : Enumerates (fun path entity => DeclaredAt body path (.entity entity))
    ((entityDecls body).map (·.decl)) := by
  rw [entityDecls, List.map_filterMap]
  exact enumerates_chosen body fun _ decl x => by cases decl <;> simp

theorem enumerates_relations :
    Enumerates (fun path decl => DeclaredAt body path (.relation decl)) (relationDecls body) :=
  enumerates_chosen body fun _ decl x => by cases decl <;> simp

theorem enumerates_notes :
    Enumerates (fun path decl => DeclaredAt body path (.note decl)) (noteDecls body) :=
  enumerates_chosen body fun _ decl x => by cases decl <;> simp

theorem enumerates_styles :
    Enumerates (fun path decl => DeclaredAt body path (.style decl)) (styleDecls body) :=
  enumerates_chosen body fun _ decl x => by cases decl <;> simp

theorem enumerates_layouts :
    Enumerates (fun path decl => DeclaredAt body path (.layout decl)) (layoutDecls body) :=
  enumerates_chosen body fun _ decl x => by cases decl <;> simp

def Declared (name : String) : Prop :=
  ∃ path entity, DeclaredAt body path (.entity entity) ∧ entity.name = name

def FirstAt (path : List Nat) (entity : EntityDecl) : Prop :=
  DeclaredAt body path (.entity entity) ∧
    ∀ earlier < path, ∀ other, DeclaredAt body earlier (.entity other) → other.name ≠ entity.name

theorem mem_keys_keptEntities (name : String) :
    name ∈ (keptEntities body).keys ↔ Declared body name := by
  have named : name ∈ (entityDecls body).map (·.decl.name) ↔
      ∃ entity ∈ (entityDecls body).map (·.decl), entity.name = name := by
    simp
  rw [(keeps_keptEntities body).mem_keys, named]
  simp only [(enumerates_entities body).mem_iff, Declared]
  constructor
  · rintro ⟨entity, ⟨path, there⟩, same⟩
    exact ⟨path, entity, there, same⟩
  · rintro ⟨path, entity, there, same⟩
    exact ⟨entity, ⟨path, there⟩, same⟩

def unlessEarlier? (p : List EntityDecl × EntityDecl) : Option EntityDecl :=
  if p.2.name ∈ p.1.map (·.name) then none else some p.2

theorem decls_keepFirst (found : List (Placed EntityDecl)) :
    (keepFirst found).entries.map (·.2.decl) =
      (withEarlier (found.map (·.decl))).filterMap unlessEarlier? := by
  -- From the back, since declarations are put into the map one behind the other.
  induction found using List.reverseRecOn with
  | nil => rfl
  | append_singleton found placed ih =>
    have known : (keepFirst found).contains placed.decl.name = true ↔
        placed.decl.name ∈ (found.map (·.decl)).reverse.map (·.name) := by
      have keys := (keeps_keepFirst found).mem_keys placed.decl.name
      simpa [OrderedMap.contains, OrderedMap.keys] using keys
    rw [keepFirst_concat, List.map_append, List.map_singleton, withEarlier_concat,
      List.filterMap_append, ← ih, List.filterMap_cons, List.filterMap_nil, OrderedMap.putNew,
      unlessEarlier?]
    by_cases earlier : (keepFirst found).contains placed.decl.name = true
    · rw [if_pos earlier, if_pos (known.1 earlier), List.append_nil]
    · rw [if_neg earlier, if_neg (mt known.2 earlier), List.map_append]
      rfl

theorem enumerates_kept :
    Enumerates (FirstAt body) ((keptEntities body).entries.map (·.2.decl)) := by
  rw [keptEntities_eq, decls_keepFirst]
  exact (enumerates_entities body).firstsBy (·.name)

end Body

end ArchDiagram.Analysis
