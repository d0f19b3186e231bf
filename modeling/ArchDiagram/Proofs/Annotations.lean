import ArchDiagram.Proofs.Records

/-!
What notes, layouts and style blocks do to the entities of a diagram, wherever they stand. An entity
takes its last note, its last place and all its styles, and keeps the record of its declaration in
everything else.
-/

namespace ArchDiagram.Analysis

/-- Whether a declaration only attaches something to a name. -/
def attaches : Declaration → Bool
  | .note _ | .style _ | .layout _ => true
  | .entity _ | .relation _ => false

mutual

def unannotatedItem : Item → List Item
  | .package name body span => [.package name (unannotated body) span]
  | .declaration decl => if attaches decl then [] else [.declaration decl]

/-- A body without its notes, style blocks and layouts, down to the innermost package. -/
def unannotated : List Item → List Item
  | [] => []
  | item :: rest => unannotatedItem item ++ unannotated rest

end

mutual

theorem outline_unannotatedItem (package : Option String) : (item : Item) →
    outline package (unannotatedItem item) =
      (itemOutline package item).filter (!attaches ·.decl)
  | .package name body span => by
    rw [unannotatedItem, itemOutline, ← outline_unannotated (some name) body]
    exact List.append_nil _
  | .declaration decl => by cases decl <;> rfl

theorem outline_unannotated (package : Option String) : (body : List Item) →
    outline package (unannotated body) = (outline package body).filter (!attaches ·.decl)
  | [] => rfl
  | item :: rest => by
    rw [unannotated, outline_append, outline_unannotatedItem package item,
      outline_unannotated package rest, outline, List.filter_append]

end

section Unannotated

variable (body : List Item)

theorem annotations_unannotated {α : Type} {choose : Placed Declaration → Option α}
    (only : ∀ placed, attaches placed.decl = false → choose placed = none) :
    (declarations (unannotated body)).filterMap choose = [] := by
  rw [declarations, outline_unannotated, List.filterMap_eq_nil_iff]
  intro placed inside
  exact only placed (Bool.not_eq_true' _ |>.mp (List.mem_filter.1 inside).2)

theorem entityDecls_unannotated : entityDecls (unannotated body) = entityDecls body := by
  rw [entityDecls_eq, entityDecls_eq, outline_unannotated, entitiesOf, List.filterMap_filter]
  refine congrArg (List.filterMap · (outline none body)) (funext fun placed => ?_)
  obtain ⟨package, decl⟩ := placed
  cases decl <;> rfl

theorem entityMap_unannotated :
    entityMap (unannotated body) = (keptEntities body).mapValues fun _ => lowerEntity := by
  have kept : keptEntities (unannotated body) = keptEntities body := by
    rw [keptEntities_eq, keptEntities_eq, entityDecls_unannotated]
  have notes : noteDecls (unannotated body) = [] :=
    annotations_unannotated body fun ⟨_, decl⟩ other => by cases decl <;> first | rfl | cases other
  have styles : styleDecls (unannotated body) = [] :=
    annotations_unannotated body fun ⟨_, decl⟩ other => by cases decl <;> first | rfl | cases other
  have layouts : layoutDecls (unannotated body) = [] :=
    annotations_unannotated body fun ⟨_, decl⟩ other => by cases decl <;> first | rfl | cases other
  rw [entityMap, kept, notes, styles, layouts]
  rfl

end Unannotated

/-- The name that an annotation is for. Some notes are for none. -/
def target? : Declaration → Option String
  | .note decl => decl.target
  | .style decl => some decl.target
  | .layout decl => some decl.target
  | .entity _ | .relation _ => none

section Attached

variable (body : List Item) (name : String)

def NotedAt (path : List Nat) (text : String) : Prop :=
  ∃ decl, DeclaredAt body path (.note decl) ∧ decl.target = some name ∧ decl.text = text

def PlacedAt (path : List Nat) (place : Model.Place) : Prop :=
  ∃ decl, DeclaredAt body path (.layout decl) ∧ decl.target = name ∧ ⟨decl.x, decl.y⟩ = place

/-- A write of a style block on an entity: it stands at its number below the path of the block. -/
def StyledAt (site : List Nat ×ₗ Nat) (write : String × String) : Prop :=
  ∃ decl, DeclaredAt body (ofLex site).1 (.style decl) ∧ decl.target = name ∧
    decl.styles.entries[(ofLex site).2]? = some write

theorem latest_noteOn : Latest (NotedAt body name) (noteOn? (noteDecls body) name) :=
  (enumerates_notes body).latest_where (·.target = some name) (·.text)

theorem latest_placeOf : Latest (PlacedAt body name) (placeOf? (layoutDecls body) name) :=
  (enumerates_layouts body).latest_where (·.target = name)
    fun decl => (⟨decl.x, decl.y⟩ : Model.Place)

theorem written_stylesOf : Written (StyledAt body name) (stylesOf (styleDecls body) name) := by
  have blocks := (enumerates_styles body).filter (·.target = name)
  refine ((blocks.flatMap (·.styles.entries) (fun _ decl (i : Nat) write =>
    decl.styles.entries[i]? = some write) fun _ decl _ => enumerates_list _).congr
      fun site write => ?_).written
  simp only [StyledAt, decide_eq_true_eq, and_assoc]

/-- An entity with what is attached to its name. -/
structure Attached (own entity : Model.Entity) : Prop where
  own : entity =
    { own with note := entity.note, place := entity.place, styles := entity.styles }
  note : Latest (NotedAt body name) entity.note
  place : Latest (PlacedAt body name) entity.place
  styles : Written (StyledAt body name) entity.styles

theorem attached_lowerEntity (placed : Placed EntityDecl) :
    Attached body name (lowerEntity placed)
      { lowerEntity placed with
        note := noteOn? (noteDecls body) name
        place := placeOf? (layoutDecls body) name
        styles := stylesOf (styleDecls body) name } :=
  ⟨rfl, latest_noteOn body name, latest_placeOf body name, written_stylesOf body name⟩

theorem Attached.eq_own {body : List Item} {name : String} {own entity : Model.Entity}
    (attached : Attached body name own entity) (note : own.note = none) (place : own.place = none)
    (styles : own.styles = .empty)
    (none_ : ∀ path decl, DeclaredAt body path decl → target? decl ≠ some name) :
    entity = own := by
  have noNote : entity.note = none := attached.note.eq_none
    fun path _ ⟨decl, there, same, _⟩ => none_ path (.note decl) there same
  have noPlace : entity.place = none := attached.place.eq_none
    fun path _ ⟨decl, there, same, _⟩ => none_ path (.layout decl) there (congrArg some same)
  have noStyles : entity.styles = .empty := attached.styles.eq_empty
    fun _ _ ⟨decl, there, same, _⟩ => none_ _ (.style decl) there (congrArg some same)
  rw [attached.own, noNote, noPlace, noStyles, ← note, ← place, ← styles]

end Attached

namespace Without

variable {body other : List Item} {path : List Nat} {decl : Declaration}
  (without : Without body path decl other)

include without

theorem filter_chosen_eq {α : Type} {choose : Placed Declaration → Option α} {fits : α → Bool}
    (left : ∀ package x, choose ⟨package, decl⟩ = some x → fits x = false) :
    ((declarations other).filterMap choose).filter fits =
      ((declarations body).filterMap choose).filter fits := by
  rw [List.filter_filterMap, List.filter_filterMap]
  refine without.chosen_eq fun package => Option.filter_eq_none_iff.2 fun x chosen => ?_
  rw [left package x chosen]
  exact Bool.false_ne_true

theorem attached_eq {name : String} (apart : target? decl ≠ some name) :
    noteOn? (noteDecls other) name = noteOn? (noteDecls body) name ∧
    placeOf? (layoutDecls other) name = placeOf? (layoutDecls body) name ∧
    stylesOf (styleDecls other) name = stylesOf (styleDecls body) name := by
  have notes : (noteDecls other).filter (·.target = some name) =
      (noteDecls body).filter (·.target = some name) :=
    without.filter_chosen_eq fun _ _ chosen => by
      cases decl <;> cases chosen
      exact decide_eq_false apart
  have layouts : (layoutDecls other).filter (·.target = name) =
      (layoutDecls body).filter (·.target = name) :=
    without.filter_chosen_eq fun _ _ chosen => by
      cases decl <;> cases chosen
      exact decide_eq_false (mt (congrArg some) apart)
  have styles : (styleDecls other).filter (·.target = name) =
      (styleDecls body).filter (·.target = name) :=
    without.filter_chosen_eq fun _ _ chosen => by
      cases decl <;> cases chosen
      exact decide_eq_false (mt (congrArg some) apart)
  rw [noteOn?, noteOn?, placeOf?, placeOf?, stylesOf, stylesOf, notes, layouts, styles]
  exact ⟨rfl, rfl, rfl⟩

theorem entityMap_eq (attached : attaches decl = true)
    (undeclared : ∀ name, target? decl = some name → ¬ Declared body name) :
    entityMap other = entityMap body := by
  have entities : entityDecls other = entityDecls body := without.chosen_eq fun _ => by
    cases decl <;> first | rfl | cases attached
  rw [entityMap, entityMap, Analysis.keptEntities_eq other, Analysis.keptEntities_eq body, entities]
  refine OrderedMap.mapValues_congr fun name known => funext fun placed => ?_
  have declared := (mem_keys_keptEntities body name).1 known
  have apart : target? decl ≠ some name := fun same => undeclared name same declared
  obtain ⟨note, place, styles⟩ := without.attached_eq apart
  simp only [note, place, styles]

end Without

/-- The second body has one style block in the place of consecutive ones. -/
inductive Merged (parts : List StyleDecl) (block : StyleDecl) : List Item → List Item → Prop
  | here {before after : List Item} :
      Merged parts block
        (before ++ (parts.map fun part => .declaration (.style part)) ++ after)
        (before ++ .declaration (.style block) :: after)
  | inside {before after body other : List Item} {name : String} {span : Span} :
      Merged parts block body other →
      Merged parts block (before ++ .package name body span :: after)
        (before ++ .package name other span :: after)

theorem packages_append (body more : List Item) :
    packages (body ++ more) = packages body ++ packages more := by
  induction body with
  | nil => rfl
  | cons item rest ih => rw [List.cons_append, packages, ih, packages, List.append_assoc]

section Styles

variable (parts : List StyleDecl)

theorem outline_styles (package : Option String) :
    outline package (parts.map fun part => .declaration (.style part)) =
      parts.map fun part => ⟨package, .style part⟩ := by
  induction parts with
  | nil => rfl
  | cons part parts ih => exact congrArg (_ :: ·) ih

theorem directOf_styles : directOf (parts.map fun part => .declaration (.style part)) = [] := by
  rw [directOf, List.filterMap_map]
  exact List.filterMap_eq_nil_iff.2 fun _ _ => rfl

theorem packages_styles : packages (parts.map fun part => .declaration (.style part)) = [] := by
  induction parts with
  | nil => rfl
  | cons part parts ih => exact ih

end Styles

namespace Merged

variable {parts : List StyleDecl} {block : StyleDecl} {body other : List Item}
  (merged : Merged parts block body other)

include merged

theorem outline_eq (package : Option String) : ∃ front inner back,
    outline package body =
      front ++ (parts.map fun part => (⟨inner, .style part⟩ : Placed Declaration)) ++ back ∧
    outline package other = front ++ ⟨inner, .style block⟩ :: back := by
  induction merged generalizing package with
  | @here before after =>
    refine ⟨outline package before, package, outline package after, ?_, ?_⟩
    · rw [outline_append, outline_append, outline_styles]
    · rw [outline_append]
      rfl
  | @inside before after body other name span _ ih =>
    obtain ⟨front, inner, back, whole, one⟩ := ih (some name)
    refine ⟨outline package before ++ front, inner, back ++ outline package after, ?_, ?_⟩
    · rw [outline_append, outline, itemOutline, whole]
      simp
    · rw [outline_append, outline, itemOutline, one]
      simp

theorem chosen_eq {α : Type} {choose : Placed Declaration → Option α}
    (left : ∀ package part, choose ⟨package, .style part⟩ = none) :
    (declarations other).filterMap choose = (declarations body).filterMap choose := by
  obtain ⟨front, inner, back, whole, one⟩ := merged.outline_eq none
  have none_ : (parts.map fun part => (⟨inner, .style part⟩ : Placed Declaration)).filterMap
      choose = [] := by
    simp [left]
  rw [declarations, declarations, whole, one, List.filterMap_append, List.filterMap_append,
    List.filterMap_append, List.filterMap_cons_none (left inner block), none_, List.append_nil]

theorem styleDecls_eq : ∃ front back, styleDecls body = front ++ parts ++ back ∧
    styleDecls other = front ++ block :: back := by
  obtain ⟨front, inner, back, whole, one⟩ := merged.outline_eq none
  rw [styleDecls, styleDecls, declarations, declarations, whole, one, List.filterMap_append,
    List.filterMap_append, List.filterMap_append, List.filterMap_map]
  refine ⟨_, _, congrArg (_ ++ · ++ _) ?_, rfl⟩
  exact List.filterMap_some

theorem directOf_eq : directOf other = directOf body := by
  cases merged with
  | here =>
    rw [directOf_append, directOf_append, directOf_append, directOf_styles, List.append_nil]
    rfl
  | inside =>
    rw [directOf_append, directOf_append]
    rfl

theorem packages_eq : packages other = packages body := by
  induction merged with
  | here =>
    rw [packages_append, packages_append, packages_append, packages_styles, List.append_nil]
    rfl
  | inside merged ih =>
    have direct : directNames _ = directNames _ := congrArg List.eraseDups merged.directOf_eq
    rw [packages_append, packages_append, packages, packages, itemPackages, itemPackages, ih,
      direct]

theorem stylesOf_eq (same : ∀ part ∈ parts, part.target = block.target)
    (whole : block.styles = .ofList (parts.flatMap (·.styles.entries))) (name : String) :
    stylesOf (styleDecls other) name = stylesOf (styleDecls body) name := by
  obtain ⟨front, back, several, one⟩ := merged.styleDecls_eq
  rw [stylesOf, stylesOf, several, one, List.filter_append, List.filter_append, List.filter_append]
  by_cases here : block.target = name
  · have all : parts.filter (·.target = name) = parts :=
      List.filter_eq_self.2 fun part inside => decide_eq_true ((same part inside).trans here)
    have first : (block :: back).filter (·.target = name) =
        block :: back.filter (·.target = name) := List.filter_cons_of_pos (decide_eq_true here)
    rw [all, first, List.flatMap_append, List.flatMap_cons, whole, List.flatMap_append,
      List.flatMap_append]
    simp only [OrderedMap.ofList, OrderedMap.putAll_append]
    exact congrArg (OrderedMap.putAll · _) (OrderedMap.putAll_ofList ..)
  · have none_ : parts.filter (·.target = name) = [] :=
      List.filter_eq_nil_iff.2 fun part inside found =>
        here ((same part inside).symm.trans (of_decide_eq_true found))
    rw [none_, List.append_nil, List.filter_cons_of_neg (by simpa using here)]

theorem lowerDiagram_eq (same : ∀ part ∈ parts, part.target = block.target)
    (whole : block.styles = .ofList (parts.flatMap (·.styles.entries))) (name : String)
    (kind : DiagramKind) (span : Span) :
    lowerDiagram ⟨name, kind, other, span⟩ = lowerDiagram ⟨name, kind, body, span⟩ := by
  have entities : entityDecls other = entityDecls body := merged.chosen_eq fun _ _ => rfl
  have relations : relationDecls other = relationDecls body := merged.chosen_eq fun _ _ => rfl
  have notes : noteDecls other = noteDecls body := merged.chosen_eq fun _ _ => rfl
  have layouts : layoutDecls other = layoutDecls body := merged.chosen_eq fun _ _ => rfl
  have styles : stylesOf (styleDecls other) = stylesOf (styleDecls body) :=
    funext (merged.stylesOf_eq same whole)
  simp only [lowerDiagram, entityMap, keptEntities_eq, entities, relations, notes, layouts, styles,
    merged.packages_eq]

end Merged

/-- Annotations attach to the entities that they are for and change nothing else. Each entity of a
diagram is as it is without any annotations, but for its note, which is the last one on it, its
place, which is the last one of it, and its styles, which are those that the writes of all style
blocks on it leave when they are performed in document order. So it is all the same whether writes
stand in one block or in consecutive ones, and what is for a name that is not declared is as good as
absent. Notes are listed as they stand. -/
theorem annotations_exact (diagram : DiagramDecl) :
    let own := (lowerDiagram { diagram with body := unannotated diagram.body }).entities
    let entities := (lowerDiagram diagram).entities
    entities.keys = own.keys ∧
    (∀ name bare, own.get? name = some bare →
      bare.note = none ∧ bare.place = none ∧ bare.styles = .empty ∧
      ∃ entity, entities.get? name = some entity ∧ Attached diagram.body name bare entity) ∧
    (∀ name, (∀ path decl, DeclaredAt diagram.body path decl → target? decl ≠ some name) →
      entities.get? name = own.get? name) ∧
    (∀ path decl other, Without diagram.body path decl other → attaches decl = true →
      (∀ name, target? decl = some name → ¬ Declared diagram.body name) →
      (lowerDiagram { diagram with body := other }).entities = entities) ∧
    (∀ parts block other, (∀ part ∈ parts, part.target = block.target) →
      block.styles = .ofList (parts.flatMap (·.styles.entries)) →
      Merged parts block diagram.body other ∨ Merged parts block other diagram.body →
      lowerDiagram { diagram with body := other } = lowerDiagram diagram) ∧
    Enumerates (fun path note => ∃ decl, DeclaredAt diagram.body path (.note decl) ∧
      ⟨decl.text, decl.target⟩ = note) (lowerDiagram diagram).notes := by
  obtain ⟨title, kind, body, span⟩ := diagram
  intro own entities
  -- Without annotations a record is that of the first declaration, and annotations only add to it.
  have bare : own = (keptEntities body).mapValues fun _ => lowerEntity := entityMap_unannotated body
  have attached (name : String) (entity : Model.Entity) (found : own.get? name = some entity) :
      entity.note = none ∧ entity.place = none ∧ entity.styles = .empty ∧
      ∃ whole, entities.get? name = some whole ∧ Attached body name entity whole := by
    rw [bare, OrderedMap.get?_mapValues] at found
    obtain ⟨placed, kept, rfl⟩ := Option.map_eq_some_iff.1 found
    refine ⟨rfl, rfl, rfl, _, ?_, attached_lowerEntity body name placed⟩
    exact (get?_entityMap body name).trans (congrArg (Option.map _) kept)
  refine ⟨?_, attached, ?_, ?_, ?_, (enumerates_notes body).map _⟩
  · rw [bare, OrderedMap.keys_mapValues]
    exact keys_entityMap body
  · intro name none_
    cases found : own.get? name with
    | none =>
      rw [bare, OrderedMap.get?_mapValues, Option.map_eq_none_iff] at found
      exact (get?_entityMap body name).trans (congrArg (Option.map _) found)
    | some entity =>
      obtain ⟨note, place, styles, whole, here, attached⟩ := attached name entity found
      rw [here, attached.eq_own note place styles none_]
  · exact fun path decl other without attached undeclared =>
      without.entityMap_eq attached undeclared
  · rintro parts block other same whole (merged | merged)
    · exact merged.lowerDiagram_eq same whole title kind span
    · exact (merged.lowerDiagram_eq same whole title kind span).symm

/-- Two notes and two style blocks on a class, on both sides of it and in a package, and a note on a
name that is not declared. -/
theorem annotations_exact_split :
    let span : Span := ⟨.start, 0⟩
    let class_ : Item := .declaration (.entity ⟨[], .classType, "A", none, [], [], [], span⟩)
    let note (text name : String) : Declaration := .note ⟨text, some name, span⟩
    let parts : List StyleDecl := [⟨"A", .ofList [("fill", "red"), ("text", "big")], span⟩,
      ⟨"A", .ofList [("line", "thin"), ("fill", "blue")], span⟩]
    let block : StyleDecl :=
      ⟨"A", .ofList [("fill", "blue"), ("text", "big"), ("line", "thin")], span⟩
    let styled (styles : List StyleDecl) : List Item :=
      styles.map fun part => .declaration (.style part)
    let body (styles : List StyleDecl) (more : List Item) : List Item :=
      [.declaration (note "one" "A"), .package "p" (styled styles ++ [class_]) span,
        .declaration (note "two" "A")] ++ more
    let stray : Item := .declaration (note "three" "B")
    let diagram (body : List Item) : DiagramDecl := ⟨"d", .classes, body, span⟩
    lowerDiagram (diagram (body [block] [stray])) = lowerDiagram (diagram (body parts [stray])) ∧
    (lowerDiagram (diagram (body parts []))).entities =
      (lowerDiagram (diagram (body parts [stray]))).entities ∧
    ∃ bare entity, (lowerDiagram (diagram (body parts [stray]))).entities.get? "A" = some entity ∧
      Attached (body parts [stray]) "A" bare entity ∧ entity.note = some "two" ∧
      entity.styles = .ofList [("fill", "blue"), ("text", "big"), ("line", "thin")] := by
  intro span class_ note parts block styled body stray diagram
  have merged : Merged parts block (body parts [stray]) (body [block] [stray]) :=
    @Merged.inside _ _ [_] _ _ _ _ _ (@Merged.here _ _ [] _)
  have without : Without (body parts [stray]) [3] (note "three" "B") (body parts []) :=
    @Without.here (body parts []) [] _
  have undeclared : ¬ Declared (body parts [stray]) "B" := by
    rw [← mem_keys_keptEntities]
    decide +kernel
  obtain ⟨-, attached, -, absent, split, -⟩ := annotations_exact (diagram (body parts [stray]))
  obtain ⟨-, -, -, entity, found, whole⟩ := attached "A" _ rfl
  refine ⟨split parts block _ (by decide) rfl (.inl merged), absent _ _ _ without rfl ?_,
    _, entity, found, whole, ?_⟩
  · rintro name same
    cases same
    exact undeclared
  · cases found
    decide +kernel

end ArchDiagram.Analysis
