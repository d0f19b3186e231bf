import ArchDiagram.Proofs.Rearrangement
import ArchDiagram.Proofs.WellFormed
import ArchDiagram.Proofs.Writes

/-!
The entities of a diagram as their declarations have them. Each name has the record of its first
declaration, in the order of these, with the members as they are declared and in the innermost
package around it. Declarations that repeat a name leave no trace in the map.
-/

namespace ArchDiagram.Analysis

/-- Whom a mark lets in. Without a mark a member is for all. -/
inductive Grants : VisibilityMark → Model.Visibility → Prop
  | plus : Grants .plus .forAll
  | absent : Grants .absent .forAll
  | minus : Grants .minus .forOwner
  | hash : Grants .hash .forHeirs
  | tilde : Grants .tilde .forPackage

theorem grants_iff {mark : VisibilityMark} {visibility : Model.Visibility} :
    Grants mark visibility ↔ visibility = mark.meaning := by
  constructor
  · rintro (_ | _ | _ | _ | _) <;> rfl
  · rintro rfl
    cases mark with
    | plus => exact .plus
    | minus => exact .minus
    | hash => exact .hash
    | tilde => exact .tilde
    | absent => exact .absent

inductive Shows : Option Literal → Option String → Prop
  | absent : Shows none none
  | text {value : String} {span : Span} : Shows (some ⟨.text value, span⟩) (some value)
  | integer {value : Int} {span : Span} :
      Shows (some ⟨.integer value, span⟩) (some (toString value))
  | decimal {value : Decimal.Binary64} {span : Span} :
      Shows (some ⟨.decimal value, span⟩) (some (Decimal.plain.text value))
  | yes {span : Span} : Shows (some ⟨.boolean true, span⟩) (some "true")
  | no {span : Span} : Shows (some ⟨.boolean false, span⟩) (some "false")

theorem shows_iff {value : Option Literal} {shown : Option String} :
    Shows value shown ↔ shown = value.map (·.value.toText) := by
  constructor
  · rintro (_ | _ | _ | _ | _ | _) <;> rfl
  · rintro rfl
    cases value with
    | none => exact .absent
    | some literal =>
      obtain ⟨constant, span⟩ := literal
      cases constant with
      | text value => exact .text
      | integer value => exact .integer
      | decimal value => exact .decimal
      | boolean value =>
        cases value with
        | false => exact .no
        | true => exact .yes

/-- A field as its declaration has it. -/
structure RecordsField (decl : FieldDecl) (field : Model.Field) : Prop where
  name : field.name = decl.name
  type : field.type = decl.type.text
  visibility : Grants decl.visibility field.visibility
  isStatic : field.isStatic = true ↔ .static ∈ decl.modifiers
  isFinal : field.isFinal = true ↔ .final ∈ decl.modifiers
  defaultValue : Shows decl.defaultValue field.defaultValue

/-- A method as its declaration has it. In an abstract entity every method is abstract. -/
structure RecordsMethod (entity : EntityDecl) (decl : MethodDecl) (method : Model.Method) :
    Prop where
  name : method.name = decl.name
  params : method.params = decl.params.map fun param => ⟨param.name, param.type.text⟩
  returnType : method.returnType = decl.returnType.text
  visibility : Grants decl.visibility method.visibility
  isStatic : method.isStatic = true ↔ .static ∈ decl.modifiers
  isAbstract : method.isAbstract = true ↔
    .abstract ∈ entity.modifiers ∨ .abstract ∈ decl.modifiers

/-- An entity as its declaration has it, in the packages around it. Members of each kind are in the
order in which they are declared, and none is lost. -/
structure Records (house : House) (decl : EntityDecl) (entity : Model.Entity) : Prop where
  id : entity.id = decl.name
  name : entity.name = decl.name
  kind : entity.kind = decl.kind
  stereotype : entity.stereotype = decl.stereotype
  extendsNames : entity.extendsNames = decl.extendsNames
  implementsNames : entity.implementsNames = decl.implementsNames
  package : entity.package = house.getLast?.map Prod.snd
  isAbstract : entity.isAbstract = true ↔ .abstract ∈ decl.modifiers ∨ decl.kind = .interface
  fields : Enumerates (fun (i : Nat) field =>
    ∃ member, decl.members[i]? = some (.field member) ∧ RecordsField member field) entity.fields
  methods : Enumerates (fun (i : Nat) method =>
    ∃ member, decl.members[i]? = some (.method member) ∧ RecordsMethod decl member method)
    entity.methods
  values : Enumerates (fun (i : Nat) value =>
    ∃ member, decl.members[i]? = some (.value member) ∧ value = ⟨member.name⟩) entity.values
  complete : entity.fields.length + entity.methods.length + entity.values.length =
    decl.members.length

theorem recordsField_iff (decl : FieldDecl) (field : Model.Field) :
    RecordsField decl field ↔ lowerField decl = field := by
  constructor
  · rintro ⟨name, type, visibility, isStatic, isFinal, defaultValue⟩
    obtain ⟨_, _, _, _, _, _⟩ := field
    have static := Bool.eq_iff_iff.2 (List.contains_iff_mem.trans isStatic.symm)
    have final := Bool.eq_iff_iff.2 (List.contains_iff_mem.trans isFinal.symm)
    exact (Model.Field.mk.injEq ..).mpr
      ⟨name.symm, type.symm, (grants_iff.1 visibility).symm, static, final,
        (shows_iff.1 defaultValue).symm⟩
  · rintro rfl
    exact ⟨rfl, rfl, grants_iff.2 rfl, List.contains_iff_mem, List.contains_iff_mem,
      shows_iff.2 rfl⟩

theorem recordsMethod_iff (entity : EntityDecl) (decl : MethodDecl) (method : Model.Method) :
    RecordsMethod entity decl method ↔
      lowerMethod (entity.modifiers.contains .abstract) decl = method := by
  have either : (entity.modifiers.contains .abstract || decl.modifiers.contains .abstract) = true ↔
      .abstract ∈ entity.modifiers ∨ .abstract ∈ decl.modifiers := by
    rw [Bool.or_eq_true, List.contains_iff_mem, List.contains_iff_mem]
  constructor
  · rintro ⟨name, params, returnType, visibility, isStatic, isAbstract⟩
    obtain ⟨_, _, _, _, _, _⟩ := method
    have static := Bool.eq_iff_iff.2 (List.contains_iff_mem.trans isStatic.symm)
    have abstract := Bool.eq_iff_iff.2 (either.trans isAbstract.symm)
    exact (Model.Method.mk.injEq ..).mpr
      ⟨name.symm, params.symm, returnType.symm, (grants_iff.1 visibility).symm, static, abstract⟩
  · rintro rfl
    exact ⟨rfl, rfl, rfl, grants_iff.2 rfl, List.contains_iff_mem, either⟩

theorem enumerates_memberRecords {α β : Type} {choose : Member → Option α} {make : α → Member}
    (inverse : ∀ member x, choose member = some x ↔ member = make x) {record : α → β}
    {records : α → β → Prop} (exact_ : ∀ x y, records x y ↔ record x = y) (members : List Member) :
    Enumerates (fun (i : Nat) y => ∃ x, members[i]? = some (make x) ∧ records x y)
      ((members.filterMap choose).map record) := by
  refine (((enumerates_list members).filterMap choose).map record).congr fun i y => ?_
  constructor
  · rintro ⟨x, ⟨member, there, chosen⟩, same⟩
    rw [(inverse member x).1 chosen] at there
    exact ⟨x, there, (exact_ x y).2 same⟩
  · rintro ⟨x, there, recorded⟩
    exact ⟨x, ⟨make x, there, (inverse _ x).2 rfl⟩, (exact_ x y).1 recorded⟩

theorem length_members (members : List Member) :
    (fieldDecls members).length + (methodDecls members).length + (valueDecls members).length =
      members.length := by
  induction members with
  | nil => rfl
  | cons member rest ih =>
    simp only [fieldDecls, methodDecls, valueDecls] at ih ⊢
    cases member <;> simp only [List.filterMap_cons, List.length_cons] <;> omega

theorem House.innermost_eq (house : House) (package : Option String) :
    House.innermost package house = (house.getLast?.map Prod.snd).or package := by
  induction house generalizing package with
  | nil => rfl
  | cons outer house ih =>
    rw [House.innermost, ih]
    cases house with
    | nil => rfl
    | cons next house =>
      rw [List.getLast?_cons_cons, List.getLast?_eq_some_getLast (List.cons_ne_nil next house)]
      rfl

theorem records_lowerEntity (house : House) (decl : EntityDecl) :
    Records house decl (lowerEntity ⟨House.innermost none house, decl⟩) where
  id := rfl
  name := rfl
  kind := rfl
  stereotype := rfl
  extendsNames := rfl
  implementsNames := rfl
  package := (House.innermost_eq house none).trans Option.or_none
  isAbstract := by
    simp only [lowerEntity, Bool.or_eq_true, List.contains_iff_mem, decide_eq_true_eq]
  fields := enumerates_memberRecords (fun member x => by cases member <;> simp) recordsField_iff _
  methods := enumerates_memberRecords (fun member x => by cases member <;> simp)
    (recordsMethod_iff decl) _
  values := enumerates_memberRecords (fun member x => by cases member <;> simp)
    (fun _ _ => eq_comm) _
  complete := by
    simp only [lowerEntity, List.length_map]
    exact length_members decl.members

theorem Records.attached {house : House} {decl : EntityDecl} {entity : Model.Entity}
    (records : Records house decl entity) (note : Option String) (place : Option Model.Place)
    (styles : OrderedMap String) :
    Records house decl { entity with note := note, place := place, styles := styles } :=
  ⟨records.id, records.name, records.kind, records.stereotype, records.extendsNames,
    records.implementsNames, records.package, records.isAbstract, records.fields, records.methods,
    records.values, records.complete⟩

theorem Keeps.get?_eq {found : List (Placed EntityDecl)} {map : OrderedMap (Placed EntityDecl)}
    (keeps : Keeps found map) (name : String) :
    map.get? name = found.find? (·.decl.name = name) := by
  rw [← keeps.first]
  exact OrderedMap.lookup_eq_find? keeps.keyed name

section Body

variable {body : List Item} {path : List Nat} {house : House} {decl : EntityDecl}

theorem get?_keptEntities (stands : HousedAt body path house (.entity decl))
    (first : FirstAt body path decl) :
    (keptEntities body).get? decl.name = some ⟨House.innermost none house, decl⟩ := by
  have found : (entitiesAmong (housed 0 body)).find? (·.2.name = decl.name) = some (house, decl) :=
    (enumerates_entitiesAmong body).find?_eq stands (decide_eq_true rfl)
      fun earlier less other there =>
        decide_eq_false (first.2 earlier less other.2 ⟨other.1, there⟩)
  rw [(keeps_keptEntities body).get?_eq, entityDecls_eq_map, List.find?_map]
  exact congrArg (Option.map _) found

theorem enumerates_keys (body : List Item) :
    Enumerates (fun path name => ∃ entity, FirstAt body path entity ∧ entity.name = name)
      (entityMap body).keys := by
  have names : (entityMap body).keys =
      ((keptEntities body).entries.map (·.2.decl)).map (·.name) := by
    rw [keys_entityMap, (keeps_keptEntities body).keys_eq, List.map_map, List.map_map]
    rfl
  rw [names]
  exact (enumerates_kept body).map _

theorem get?_entityMap (body : List Item) (name : String) : (entityMap body).get? name =
    ((keptEntities body).get? name).map fun placed =>
      { lowerEntity placed with
        note := noteOn? (noteDecls body) name
        place := placeOf? (layoutDecls body) name
        styles := stylesOf (styleDecls body) name } :=
  OrderedMap.get?_mapValues ..

theorem records_of_first (stands : HousedAt body path house (.entity decl))
    (first : FirstAt body path decl) :
    ∃ entity, (entityMap body).get? decl.name = some entity ∧ Records house decl entity := by
  rw [get?_entityMap, get?_keptEntities stands first]
  exact ⟨_, rfl, (records_lowerEntity house decl).attached _ _ _⟩

end Body

/-- The second body is the first one without the declaration at a path. -/
inductive Without : List Item → List Nat → Declaration → List Item → Prop
  | here {before after : List Item} {decl : Declaration} :
      Without (before ++ .declaration decl :: after) [before.length] decl (before ++ after)
  | inside {before after body other : List Item} {name : String} {span : Span} {path : List Nat}
      {decl : Declaration} : Without body path decl other →
      Without (before ++ .package name body span :: after) (before.length :: path) decl
        (before ++ .package name other span :: after)

theorem map_decl_outline (package : Option String) (body : List Item) :
    (outline package body).map (·.decl) = (declarations body).map (·.decl) := by
  rw [declarations, outline_eq_map package 0, outline_eq_map none 0, List.map_map, List.map_map]
  rfl

theorem DeclaredAt.mem_outline {body : List Item} {path : List Nat} {decl : Declaration}
    (there : DeclaredAt body path decl) (package : Option String) :
    decl ∈ (outline package body).map (·.decl) := by
  rw [map_decl_outline]
  exact ((enumerates_declarations body).mem_iff decl).2 ⟨path, there⟩

theorem getElem?_append_here {before after : List Item} {item : Item} :
    (before ++ item :: after)[before.length]? = some item := by
  rw [List.getElem?_append_right (Nat.le_refl _), Nat.sub_self]
  rfl

theorem HousedAt.of_append {before after : List Item} {i : Nat} {path : List Nat} {house : House}
    {decl : Declaration} (stands : HousedAt (before ++ after) (i :: path) house decl)
    (less : i < before.length) : HousedAt before (i :: path) house decl := by
  cases stands with
  | item there stands =>
    rw [List.getElem?_append_left less] at there
    rw [List.take_append_of_le_length less.le] at stands
    exact .item there stands

namespace Without

variable {body other : List Item} {path : List Nat} {decl : Declaration}

theorem declaredAt (without : Without body path decl other) : DeclaredAt body path decl := by
  induction without with
  | here => exact ⟨[], .item getElem?_append_here .here⟩
  | inside _ ih =>
    obtain ⟨house, stands⟩ := ih
    exact ⟨_, .item getElem?_append_here (.inside stands)⟩

theorem outline_eq (without : Without body path decl other) (package : Option String) :
    ∃ front placed back, outline package body = front ++ placed :: back ∧
      outline package other = front ++ back ∧ placed.decl = decl ∧
      ∀ earlier < path, ∀ sooner, DeclaredAt body earlier sooner →
        sooner ∈ front.map (·.decl) := by
  induction without generalizing package with
  | @here before after decl =>
    refine ⟨outline package before, ⟨package, decl⟩, outline package after, ?_, ?_, rfl, ?_⟩
    · rw [outline_append]
      rfl
    · exact outline_append ..
    · rintro earlier less sooner ⟨house, stands⟩
      cases stands with
      | @item _ i _ path _ _ there stands =>
        -- An earlier path begins with a smaller number, as nothing is before the end of a path.
        have front : i < before.length := by
          rcases List.cons_lt_cons_iff.1 less with less | ⟨-, less⟩
          · exact less
          · exact absurd less (List.not_lt_nil _)
        exact DeclaredAt.mem_outline ⟨house, (HousedAt.item there stands).of_append front⟩ package
  | @inside before after body other name span path decl _ ih =>
    obtain ⟨front, placed, back, whole, rest, same, sooner⟩ := ih (some name)
    refine ⟨outline package before ++ front, placed, back ++ outline package after, ?_, ?_, same,
      ?_⟩
    · rw [outline_append, outline, itemOutline, whole]
      simp
    · rw [outline_append, outline, itemOutline, rest]
      simp
    · rintro earlier less found ⟨house, stands⟩
      rw [List.map_append, List.mem_append]
      cases stands with
      | @item _ i item path' _ _ there stands =>
        rcases List.cons_lt_cons_iff.1 less with front | ⟨rfl, deeper⟩
        · exact .inl (DeclaredAt.mem_outline
            ⟨house, (HousedAt.item there stands).of_append front⟩ package)
        · rw [getElem?_append_here] at there
          cases there
          cases stands with
          | inside stands => exact .inr (sooner path' deeper found ⟨_, stands⟩)

theorem chosen_eq (without : Without body path decl other) {α : Type}
    {choose : Placed Declaration → Option α}
    (left : ∀ package, choose ⟨package, decl⟩ = none) :
    (declarations other).filterMap choose = (declarations body).filterMap choose := by
  obtain ⟨front, placed, back, whole, rest, rfl, -⟩ := without.outline_eq none
  rw [declarations, declarations, whole, rest, List.filterMap_append, List.filterMap_append,
    List.filterMap_cons_none (left placed.package)]

end Without

theorem keepFirst_repeated {front back : List (Placed EntityDecl)} {placed : Placed EntityDecl}
    (known : placed.decl.name ∈ front.map (·.decl.name)) :
    keepFirst (front ++ placed :: back) = keepFirst (front ++ back) := by
  have old : (keepFirst front).putNew placed.decl.name placed = keepFirst front := by
    have keys := ((keeps_keepFirst front).mem_keys placed.decl.name).2 known
    exact if_pos (by simpa [OrderedMap.contains, OrderedMap.keys] using keys)
  rw [List.append_cons, keepFirst, List.foldl_append, ← keepFirst, keepFirst_concat, old, keepFirst,
    ← List.foldl_append, ← keepFirst]

theorem Without.keptEntities_eq {body other : List Item} {path : List Nat} {later : EntityDecl}
    (without : Without body path (.entity later) other) (repeated : ¬ FirstAt body path later) :
    keptEntities other = keptEntities body := by
  have twin : ∃ earlier < path, ∃ first, DeclaredAt body earlier (.entity first) ∧
      first.name = later.name := by
    by_contra none_
    push Not at none_
    exact repeated ⟨without.declaredAt, none_⟩
  obtain ⟨earlier, less, first, there, named⟩ := twin
  obtain ⟨front, placed, back, whole, rest, same, sooner⟩ := without.outline_eq none
  obtain ⟨package, decl⟩ := placed
  cases same
  -- Some declaration in front has the name, so the map has it already.
  have known : later.name ∈ (entitiesOf front).map (·.decl.name) := by
    obtain ⟨found, inside, isFirst⟩ := List.mem_map.1 (sooner earlier less _ there)
    refine List.mem_map.2 ⟨⟨found.package, first⟩, List.mem_filterMap.2 ⟨found, inside, ?_⟩, named⟩
    rw [isFirst]
  rw [Analysis.keptEntities_eq other, Analysis.keptEntities_eq body, entityDecls_eq,
    entityDecls_eq, whole, rest, entitiesOf_append, entitiesOf_append]
  exact (keepFirst_repeated known).symm

/-- The entities of a diagram are those of the first declarations of their names, in the order in
which these stand in the document, with the records of these declarations alone. A declaration
that repeats a name changes nothing in the map, wherever it stands. -/
theorem entities_exact (diagram : DiagramDecl) :
    Enumerates (fun path name => ∃ entity, FirstAt diagram.body path entity ∧ entity.name = name)
      (lowerDiagram diagram).entities.keys ∧
    (lowerDiagram diagram).entities.keys.Nodup ∧
    (∀ path house decl, HousedAt diagram.body path house (.entity decl) →
      FirstAt diagram.body path decl → ∃ entity,
        (lowerDiagram diagram).entities.get? decl.name = some entity ∧
        Records house decl entity) ∧
    ∀ path later other, Without diagram.body path (.entity later) other →
      ¬ FirstAt diagram.body path later →
      (lowerDiagram { diagram with body := other }).entities = (lowerDiagram diagram).entities := by
  refine ⟨enumerates_keys diagram.body, ?_, fun path house decl => records_of_first, ?_⟩
  · change (entityMap diagram.body).keys.Nodup
    rw [keys_entityMap]
    exact (keeps_keptEntities diagram.body).unique
  · intro path later other without repeated
    change entityMap other = entityMap diagram.body
    have notes : noteDecls other = noteDecls diagram.body := without.chosen_eq fun _ => rfl
    have styles : styleDecls other = styleDecls diagram.body := without.chosen_eq fun _ => rfl
    have layouts : layoutDecls other = layoutDecls diagram.body := without.chosen_eq fun _ => rfl
    rw [entityMap, entityMap, without.keptEntities_eq repeated, notes, styles, layouts]

/-- What stands before something in the first item, which is a package, stands in it too. -/
theorem DeclaredAt.in_front {name : String} {body rest : List Item} {span : Span}
    {path inner : List Nat} {decl : Declaration}
    (there : DeclaredAt (.package name body span :: rest) path decl) (less : path < 0 :: inner) :
    ∃ deeper < inner, DeclaredAt body deeper decl := by
  obtain ⟨house, stands⟩ := there
  cases stands with
  | item there stands =>
    rcases List.cons_lt_cons_iff.1 less with before | ⟨rfl, before⟩
    · exact absurd before (Nat.not_lt_zero _)
    · cases there
      cases stands with
      | inside stands => exact ⟨_, before, _, stands⟩

/-- A class in a package within a package, whose name an interface repeats behind them. -/
theorem entities_exact_repeated :
    let span : Span := ⟨.start, 0⟩
    let text : TypeExpr := .simple "string" span
    let first : EntityDecl := ⟨[.abstract], .classType, "A", some "s", ["B"], ["I"],
      [.method ⟨.absent, [.static], "f", [⟨"y", text, span⟩], text, span⟩,
       .field ⟨.hash, [.final], "x", .nullable text span, none, span⟩], span⟩
    let later : EntityDecl := ⟨[], .interface, "A", none, [], [], [], span⟩
    let front : Item := .package "p" [.package "q" [.declaration (.entity first)] span] span
    let body := [front, .declaration (.entity later)]
    let house := [(0, "p"), (0, "q")]
    HousedAt body [0, 0, 0] house (.entity first) ∧ FirstAt body [0, 0, 0] first ∧
    Without body [1] (.entity later) [front] ∧ ¬ FirstAt body [1] later ∧
    (∃ entity, (lowerDiagram ⟨"d", .classes, body, span⟩).entities.get? "A" = some entity ∧
      Records house first entity ∧ entity.package = some "q") ∧
    (lowerDiagram ⟨"d", .classes, [front], span⟩).entities =
      (lowerDiagram ⟨"d", .classes, body, span⟩).entities := by
  intro span text first later front body house
  have stands : HousedAt body [0, 0, 0] house (.entity first) :=
    .item rfl (.inside (.item rfl (.inside (.item rfl .here))))
  have counts : FirstAt body [0, 0, 0] first := by
    refine ⟨⟨house, stands⟩, fun earlier less other there => ?_⟩
    obtain ⟨deeper, less, there⟩ := there.in_front less
    obtain ⟨deepest, less, _, stands⟩ := there.in_front less
    cases stands with
    | item => exact absurd (List.cons_lt_cons_iff.1 less) (by simp)
  have without : Without body [1] (.entity later) [front] := @Without.here [front] [] _
  have repeated : ¬ FirstAt body [1] later :=
    fun alone => alone.2 [0, 0, 0] (by decide) first ⟨house, stands⟩ rfl
  obtain ⟨-, -, records, unchanged⟩ := entities_exact ⟨"d", .classes, body, span⟩
  obtain ⟨entity, found, record⟩ := records _ _ _ stands counts
  exact ⟨stands, counts, without, repeated, ⟨entity, found, record, record.package⟩,
    unchanged _ _ _ without repeated⟩

end ArchDiagram.Analysis
