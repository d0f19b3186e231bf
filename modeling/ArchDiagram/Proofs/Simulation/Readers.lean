import ArchDiagram.Proofs.Simulation

/-!
Every reader agrees with itself on cursors that stand for each other: the trees are the same to
those who look at their spans as the simulation says. This holds on all paths, those on which
something is reported included.
-/

namespace ArchDiagram.Syntax

variable {sim : Simulation}

theorem agree_importDecl : Agree sim (Like sim ImportDecl.mapSpans) importDecl importDecl := by
  apply Agree.bind_same agree_expect
  intro word _ _ _ _ first
  apply Agree.bind_eq agree_expectText
  intro path
  apply Agree.bind_eq agree_accept.discard
  intro _
  exact .spanned first fun _ _ span => congrArg (ImportDecl.mk path) span

theorem agree_modifierRound : Agree sim Eq modifierRound modifierRound := by
  apply Agree.bind_same agree_current
  intro lexeme here there stop other _
  dsimp only
  split
  · exact .bind_eq agree_advance.discard fun _ => .pure rfl
  · exact .pure rfl

theorem agree_modifiers : Agree sim Eq modifiers modifiers :=
  (agree_modifierRound.seen_option.repeatWhile).eq_of_map

theorem agree_typeArguments {argument other : Reader TypeExpr}
    (arguments : Agree sim (Like sim TypeExpr.mapSpans) argument other) :
    Agree sim (Like sim fun f => List.map (TypeExpr.mapSpans f)) (typeArguments argument)
      (typeArguments other) := by
  apply Agree.bind_eq agree_expect.discard
  intro _
  apply Agree.bind arguments.separatedByCommas
  intro args args' same
  exact .bind_eq agree_expect.discard fun _ => .pure same

theorem agree_simple {first other : Token} (same : sim.tokens first other) (name : String) :
    Agree sim (Like sim TypeExpr.mapSpans)
      (spanFrom first >>= fun span => pure (.simple name span))
      (spanFrom other >>= fun span => pure (.simple name span)) :=
  .spanned same fun _ _ span => congrArg (TypeExpr.simple name) span

theorem agree_typeBase {arguments? : Option (Reader (List TypeExpr))}
    (agree : ∀ arguments ∈ arguments?,
      Agree sim (Like sim fun f => List.map (TypeExpr.mapSpans f)) arguments arguments) :
    Agree sim (Like sim TypeExpr.mapSpans) (typeBase arguments?) (typeBase arguments?) := by
  apply Agree.bind_same agree_current
  intro name here there stop other first
  refine .ite .rfl ?_ (.bind_eq (agree_report _ first) fun _ => agree_simple first _)
  apply Agree.bind_eq agree_advance.discard
  intro _
  apply Agree.bind_eq agree_isAt
  intro opens
  refine .ite .rfl ?_ (agree_simple first _)
  cases arguments? with
  | none =>
    apply Agree.bind_same agree_advance
    intro _ _ _ _ _ bracket
    apply Agree.bind_eq (agree_report _ bracket)
    intro _
    apply Agree.bind_eq (agree_skipNested _ _)
    intro _
    exact .bind_eq agree_expect.discard fun _ => agree_simple first _
  | some arguments =>
    apply Agree.bind (agree arguments rfl)
    intro args args' same
    apply Agree.spanned first
    intro here there span
    simp only [Like, TypeExpr.mapSpans, TypeExpr.mapAllSpans_eq]
    exact congrArg₂ (TypeExpr.generic name.text) same span

theorem agree_typeWith {arguments? : Option (Reader (List TypeExpr))}
    (agree : ∀ arguments ∈ arguments?,
      Agree sim (Like sim fun f => List.map (TypeExpr.mapSpans f)) arguments arguments) :
    Agree sim (Like sim TypeExpr.mapSpans) (typeWith arguments?) (typeWith arguments?) := by
  apply Agree.bind_same agree_current
  intro lexeme _ _ _ _ first
  apply Agree.bind (agree_typeBase agree)
  intro base base' same
  refine .bind_eq agree_accept fun marked => .ite .rfl ?_ (.pure same)
  exact .spanned first fun _ _ span => congrArg₂ TypeExpr.nullable same span

theorem agree_typeExpr (budget : Nat) :
    Agree sim (Like sim TypeExpr.mapSpans) (typeExpr budget) (typeExpr budget) := by
  induction budget with
  | zero => exact agree_typeWith fun _ none_ => by simp at none_
  | succ budget ih =>
    refine agree_typeWith fun arguments some_ => ?_
    obtain rfl := Option.some.inj some_
    exact agree_typeArguments ih

theorem agree_literal : Agree sim (Like sim Literal.mapSpans) literal literal := by
  apply Agree.bind_same agree_current
  intro lexeme here there stop other first
  dsimp only
  split
  · apply Agree.bind_eq agree_advance.discard
    intro _
    apply Agree.bind_eq (agree_ok _)
    intro value
    exact .spanned first fun _ _ span => congrArg (Literal.mk value) span
  · apply Agree.bind_eq (agree_report _ first)
    intro _
    exact .spanned first fun _ _ span => congrArg (Literal.mk (.text "")) span

theorem agree_visibility : Agree sim Eq visibility visibility := by
  apply Agree.bind_same agree_current
  intro lexeme here there stop other _
  dsimp only
  split
  · exact .bind_eq agree_advance.discard fun _ => .pure rfl
  · exact .pure rfl

theorem agree_param (budget : Nat) :
    Agree sim (Like sim ParamDecl.mapSpans) (param budget) (param budget) := by
  apply Agree.bind_same agree_current
  intro lexeme _ _ _ _ first
  apply Agree.bind_eq agree_expectName
  intro name
  apply Agree.bind_eq agree_expect.discard
  intro _
  apply Agree.bind (agree_typeExpr budget)
  intro type type' same
  exact .spanned first fun _ _ span => congrArg₂ (ParamDecl.mk name) same span

theorem agree_defaultValue :
    Agree sim (Like sim fun f => Option.map (Literal.mapSpans f)) defaultValue defaultValue := by
  refine .bind_eq agree_accept fun given => .ite .rfl ?_ (.pure rfl)
  exact .bind agree_literal fun _ _ same => .pure (congrArg some same)

section Rest

variable {first other : Token} (same : sim.tokens first other) (budget : Nat)
  (visibility : VisibilityMark) (modifiers : List Modifier) (name : String)

include same

theorem agree_fieldRest :
    Agree sim (Like sim FieldDecl.mapSpans) (fieldRest budget first visibility modifiers name)
      (fieldRest budget other visibility modifiers name) := by
  apply Agree.bind_eq agree_expect.discard
  intro _
  apply Agree.bind (agree_typeExpr budget)
  intro type type' types
  apply Agree.bind agree_defaultValue
  intro value value' values
  apply Agree.bind_eq agree_accept.discard
  intro _
  apply Agree.spanned same
  intro here there span
  exact (congr (congrArg₂ (FieldDecl.mk visibility modifiers name) types values) span :)

omit same in
theorem agree_params : Agree sim (Like sim fun f => List.map (ParamDecl.mapSpans f))
    (params budget) (params budget) :=
  .bind_eq agree_isAt fun _ => .ite .rfl (.pure rfl) (agree_param budget).separatedByCommas

theorem agree_methodRest :
    Agree sim (Like sim MethodDecl.mapSpans) (methodRest budget first visibility modifiers name)
      (methodRest budget other visibility modifiers name) := by
  apply Agree.bind_eq agree_expect.discard
  intro _
  apply Agree.bind (agree_params budget)
  intro list list' lists
  apply Agree.bind_eq agree_expect.discard
  intro _
  apply Agree.bind_eq agree_expect.discard
  intro _
  apply Agree.bind (agree_typeExpr budget)
  intro type type' types
  apply Agree.bind_eq agree_accept.discard
  intro _
  apply Agree.spanned same
  intro here there span
  exact (congr (congrArg₂ (MethodDecl.mk visibility modifiers name) lists types) span :)

end Rest

theorem agree_fieldOrMethod (budget : Nat) (kind : EntityKind) :
    Agree sim (Like sim fun f => Option.map (Member.mapSpans f)) (fieldOrMethod budget kind)
      (fieldOrMethod budget kind) := by
  apply Agree.bind_same agree_current
  intro lexeme _ _ _ _ first
  refine .ite .rfl ?_ (.bind_eq (agree_skipUnexpected _) fun _ => .pure rfl)
  apply Agree.bind_eq agree_visibility
  intro visibility
  apply Agree.bind_eq agree_modifiers
  intro modifiers
  refine .bind_eq agree_expectName fun name => .ite .rfl (.pure rfl) ?_
  refine .bind_eq agree_isAt fun opens => .ite .rfl ?_ ?_
  · refine .bind (agree_methodRest first ..) fun decl decl' same => .pure ?_
    exact congrArg (fun decl => some (Member.method decl)) same
  · refine .bind (agree_fieldRest first ..) fun decl decl' same => .pure ?_
    exact congrArg (fun decl => some (Member.field decl)) same

theorem Simulation.isAtValue_eq {c d : Cursor} (related : sim.cursors c d) :
    isAtValue c = isAtValue d := by
  have kinds := kind_eq (sim.current related)
  by_cases ends : c.current.kind = .endOfInput
  · have ends' : d.current.kind = .endOfInput := by rwa [← kinds]
    simp [isAtValue, ends, ends', TokenKind.isName]
  · rw [isAtValue, isAtValue, kinds, kind_eq (Simulation.ahead related ends)]

theorem agree_valueDecl : Agree sim (Like sim ValueDecl.mapSpans) valueDecl valueDecl :=
  .bind_same agree_advance fun lexeme _ _ _ _ first =>
    .spanned first fun _ _ span => congrArg (ValueDecl.mk lexeme.text) span

theorem agree_enumerationMember (budget : Nat) :
    Agree sim (Like sim fun f => Option.map (Member.mapSpans f)) (enumerationMember budget)
      (enumerationMember budget) := by
  refine .bind_eq agree_accept fun comma => .ite .rfl (.pure rfl) ?_
  apply Agree.bind agree_get
  intro c d related
  rw [Simulation.isAtValue_eq related]
  refine .ite .rfl ?_ (agree_fieldOrMethod budget _)
  refine .bind agree_valueDecl fun decl decl' same => .pure ?_
  exact congrArg (fun decl => some (Member.value decl)) same

theorem agree_member (budget : Nat) (kind : EntityKind) :
    Agree sim (Like sim fun f => Option.map (Member.mapSpans f)) (member budget kind)
      (member budget kind) := by
  refine .bind_eq agree_accept fun semicolon => .ite .rfl (.pure rfl) ?_
  exact .ite .rfl (agree_enumerationMember budget) (agree_fieldOrMethod budget kind)

theorem agree_entityKind : Agree sim Eq entityKind entityKind := by
  apply Agree.bind_same agree_current
  intro lexeme here there stop other same
  dsimp only
  split
  · exact .bind_eq agree_advance.discard fun _ => .pure rfl
  · exact .bind_eq (agree_report _ same) fun _ => .pure rfl

/-- The one reader that asks where tokens stand. -/
theorem agree_stereotypeClose : Agree sim Eq stereotypeClose stereotypeClose := by
  refine .bind agree_get fun c d related => .ite ?_ ?_ ?_
  · rw [Cursor.touching_iff, Cursor.touching_iff]
    exact sim.touching related
  · exact .bind_eq agree_advance.discard fun _ => agree_advance.discard
  · rw [sim.lexeme (sim.current related)]
    exact .bind_eq (agree_report _ (sim.current related)) fun _ => agree_accept.discard

theorem agree_stereotype : Agree sim Eq stereotype stereotype := by
  refine .bind_eq agree_accept fun opens => .ite .rfl ?_ (.pure rfl)
  apply Agree.bind_eq agree_expectIdentifier
  intro name
  exact .bind_eq agree_stereotypeClose fun _ => .pure rfl

theorem agree_namesBehind (word : Keyword) :
    Agree sim Eq (namesBehind word) (namesBehind word) := by
  refine .bind_eq agree_accept fun found => .ite .rfl ?_ (.pure rfl)
  exact .bind_eq agree_expectIdentifier.seen.separatedByCommas.eq_of_map fun _ => .pure rfl

theorem agree_members (budget : Nat) (kind : EntityKind) :
    Agree sim (Like sim fun f => List.map (Member.mapSpans f)) (members budget kind)
      (members budget kind) := by
  refine .bind_eq agree_accept fun opens => .ite .rfl ?_ (.pure rfl)
  apply Agree.bind (agree_member budget kind).many
  intro found found' same
  exact .bind_eq agree_expect.discard fun _ => .pure same

theorem agree_entity (budget : Nat) :
    Agree sim (Like sim EntityDecl.mapSpans) (entity budget) (entity budget) := by
  apply Agree.bind_same agree_current
  intro lexeme _ _ _ _ first
  apply Agree.bind_eq agree_modifiers
  intro modifiers
  apply Agree.bind_eq agree_entityKind
  intro kind
  apply Agree.bind_eq agree_expectIdentifier
  intro name
  apply Agree.bind_eq agree_stereotype
  intro stereotype
  apply Agree.bind_eq (agree_namesBehind _)
  intro extendsNames
  apply Agree.bind_eq (agree_namesBehind _)
  intro implementsNames
  apply Agree.bind (agree_members budget kind)
  intro found found' same
  exact .spanned first fun _ _ span => congrArg₂
    (EntityDecl.mk modifiers kind name stereotype extendsNames implementsNames) same span

theorem agree_attributeValue : Agree sim Eq attributeValue attributeValue := by
  refine .bind_eq agree_isAt fun color => .ite .rfl ?_ agree_expectText
  exact .bind_same agree_advance fun _ _ _ _ _ _ => .pure rfl

theorem agree_styleValue : Agree sim Eq styleValue styleValue := by
  refine .bind_eq agree_isAt fun number => .ite .rfl ?_ agree_attributeValue
  exact .bind_same agree_advance fun _ _ _ _ _ _ => .pure rfl

theorem agree_setting {value : Reader String} (values : Agree sim Eq value value)
    (separators : List TokenKind) :
    Agree sim Eq (setting value separators) (setting value separators) := by
  apply Agree.bind_eq agree_expectName
  intro key
  apply Agree.bind_eq agree_expect.discard
  intro _
  apply Agree.bind_eq values
  intro value
  refine .bind_same agree_current fun next here there stop other _ => .ite .rfl ?_ (.pure rfl)
  exact .bind_eq agree_advance.discard fun _ => .pure rfl

theorem agree_settings {value : Reader String} (values : Agree sim Eq value value)
    (closing : TokenKind) (region : Region) (separators : List TokenKind) :
    Agree sim Eq (many closing region (setting value separators))
      (many closing region (setting value separators)) :=
  (agree_setting values separators).seen_option.many.eq_of_map

theorem agree_attributes : Agree sim Eq attributes attributes := by
  refine .bind_eq agree_accept fun opens => .ite .rfl ?_ (.pure rfl)
  apply Agree.bind_eq (agree_settings agree_attributeValue _ _ _)
  intro writes
  exact .bind_eq agree_expect.discard fun _ => .pure rfl

theorem agree_relation : Agree sim (Like sim RelationDecl.mapSpans) relation relation := by
  apply Agree.bind_same agree_expect
  intro source _ _ _ _ first
  apply Agree.bind_same agree_advance
  intro symbol _ _ _ _ _
  apply Agree.bind_eq (agree_ok _)
  intro operator
  apply Agree.bind_eq agree_expectIdentifier
  intro target
  apply Agree.bind_eq agree_attributes
  intro writes
  exact .spanned first fun _ _ span => congrArg (RelationDecl.mk _ _ _ _ _ _ _) span

theorem agree_noteTarget : Agree sim Eq noteTarget noteTarget := by
  refine .bind_eq agree_accept fun pinned => .ite .rfl ?_ (.pure rfl)
  exact .bind_eq agree_expectIdentifier fun _ => .pure rfl

theorem agree_note : Agree sim (Like sim NoteDecl.mapSpans) note note := by
  apply Agree.bind_same agree_expect
  intro word _ _ _ _ first
  apply Agree.bind_eq agree_expectText
  intro text
  apply Agree.bind_eq agree_noteTarget
  intro target
  exact .spanned first fun _ _ span => congrArg (NoteDecl.mk text target) span

theorem agree_style : Agree sim (Like sim StyleDecl.mapSpans) style style := by
  apply Agree.bind_same agree_expect
  intro word _ _ _ _ first
  apply Agree.bind_eq agree_expectIdentifier
  intro target
  apply Agree.bind_eq agree_expect.discard
  intro _
  apply Agree.bind_eq (agree_settings agree_styleValue _ _ _)
  intro writes
  apply Agree.bind_eq agree_expect.discard
  intro _
  exact .spanned first fun _ _ span => congrArg (StyleDecl.mk target _) span

theorem agree_coordinate : Agree sim Eq coordinate coordinate :=
  .bind_same agree_expect fun _ _ _ _ _ _ => .ite .rfl (agree_ok _) (.pure rfl)

theorem agree_layout : Agree sim (Like sim LayoutDecl.mapSpans) layout layout := by
  apply Agree.bind_same agree_expect
  intro sign _ _ _ _ first
  apply Agree.bind_eq agree_expectIdentifier
  intro target
  apply Agree.bind_eq agree_expect.discard
  intro _
  apply Agree.bind_eq agree_expect.discard
  intro _
  apply Agree.bind_eq agree_coordinate
  intro x
  apply Agree.bind_eq agree_expect.discard
  intro _
  apply Agree.bind_eq agree_coordinate
  intro y
  apply Agree.bind_eq agree_expect.discard
  intro _
  exact .spanned first fun _ _ span => congrArg (LayoutDecl.mk target x y) span

theorem agree_packageEnd {first other : Token} (same : sim.tokens first other) (name : String)
    (items items' : List Item)
    (bodies : Like sim (fun f => List.map (Item.mapSpans f)) items items') :
    Agree sim (Like sim Item.mapSpans)
      (discard (expect (.mark .rightBrace)) >>= fun _ => spanFrom first >>= fun span =>
        pure (.package name items span))
      (discard (expect (.mark .rightBrace)) >>= fun _ => spanFrom other >>= fun span =>
        pure (.package name items' span)) := by
  refine .bind_eq agree_expect.discard fun _ => .spanned same fun here there span => ?_
  simp only [Like, Item.mapSpans, Item.mapAllSpans_eq]
  exact congrArg₂ (Item.package name) bodies span

theorem agree_packageWith {body? : Option (Reader (List Item))}
    (agree : ∀ body ∈ body?, Agree sim (Like sim fun f => List.map (Item.mapSpans f)) body body) :
    Agree sim (Like sim Item.mapSpans) (packageWith body?) (packageWith body?) := by
  apply Agree.bind_same agree_expect
  intro word _ _ _ _ first
  apply Agree.bind_eq agree_expectIdentifier
  intro name
  apply Agree.bind_same agree_expect
  intro brace here there stop other opened
  have closes := agree_packageEnd first name
  cases body? with
  | none =>
    -- What lies too deep is skipped by counting marks, in both runs alike.
    have empty : Agree sim (Like sim fun f => List.map (Item.mapSpans f)) (pure []) (pure []) :=
      .pure rfl
    refine .bind_eq (agree_report _ opened) fun _ => .ite .rfl ?_ (.bind empty closes)
    exact .bind_eq (agree_skipNested _ _) fun _ => .bind empty closes
  | some body => exact .bind (agree body rfl) closes

theorem Agree.declared {α : Type} {view : (Span → Span) → α → α} {wrap : α → Declaration}
    {r s : Reader α} (agree : Agree sim (Like sim view) r s)
    (inner : ∀ f a, (wrap a).mapSpans f = wrap (view f a)) :
    Agree sim (Like sim fun f => Option.map (Declaration.mapSpans f))
      (r >>= fun a => pure (some (wrap a))) (s >>= fun a => pure (some (wrap a))) := by
  refine .bind agree fun a b same => .pure ?_
  rw [Like, Option.map_some, Option.map_some, inner, inner, same]

theorem agree_declaration (budget : Nat) (region : Region) :
    Agree sim (Like sim fun f => Option.map (Declaration.mapSpans f)) (declaration budget region)
      (declaration budget region) := by
  apply Agree.bind agree_get
  intro c d related
  have stray : Agree sim (Like sim fun f => Option.map (Declaration.mapSpans f))
      (skipUnexpected region >>= fun _ => pure none)
      (skipUnexpected region >>= fun _ => pure none) :=
    .bind_eq (agree_skipUnexpected region) fun _ => .pure rfl
  have kinds := Simulation.kind_eq (sim.current related)
  -- The kind of declaration is told by the next two tokens.
  rw [kinds]
  split
  · exact agree_layout.declared fun _ _ => rfl
  · exact agree_note.declared fun _ _ => rfl
  · exact agree_style.declared fun _ _ => rfl
  · exact (agree_entity budget).declared fun _ _ => rfl
  · exact (agree_entity budget).declared fun _ _ => rfl
  · next name =>
    have ahead := Simulation.ahead related (by simp [kinds, name])
    rw [Simulation.kind_eq ahead]
    exact .ite .rfl (agree_relation.declared fun _ _ => rfl) stray
  · exact stray

theorem agree_item {package : Reader Item}
    (packages : Agree sim (Like sim Item.mapSpans) package package) (budget : Nat)
    (region : Region) : Agree sim (Like sim fun f => Option.map (Item.mapSpans f))
      (item budget region package) (item budget region package) := by
  have outer (f : Span → Span) (found : Option Declaration) :
      (found.map .declaration).map (Item.mapSpans f) =
        (found.map (Declaration.mapSpans f)).map .declaration := by
    cases found <;> rfl
  refine .bind_eq agree_isAt fun found => .ite .rfl ?_ ?_
  · exact .bind packages fun _ _ same => .pure (congrArg some same)
  · refine .bind (agree_declaration budget region) fun found found' same => .pure ?_
    rw [Like, outer, outer]
    exact congrArg (Option.map Item.declaration) same

theorem agree_items (budget : Nat) (region : Region) :
    Agree sim (Like sim fun f => List.map (Item.mapSpans f)) (items budget region)
      (items budget region) := by
  induction budget generalizing region with
  | zero => exact (agree_item (agree_packageWith fun _ none_ => by simp at none_) 0 region).many
  | succ budget ih =>
    refine (agree_item (agree_packageWith fun body some_ => ?_) (budget + 1) region).many
    obtain rfl := Option.some.inj some_
    exact ih .packageBody

theorem agree_diagramKind : Agree sim Eq diagramKind diagramKind := by
  apply Agree.bind_same agree_current
  intro lexeme here there stop other same
  dsimp only
  generalize (if lexeme.kind = .string then none else DiagramKind.ofWord? lexeme.text) = found
  cases found with
  | some kind => exact .bind_eq agree_advance.discard fun _ => .pure rfl
  | none =>
    exact .bind_eq (agree_report _ same) fun _ => .ite .rfl
      (.bind_eq agree_advance.discard fun _ => .pure rfl) (.pure rfl)

theorem agree_diagramDecl :
    Agree sim (Like sim DiagramDecl.mapSpans) diagramDecl diagramDecl := by
  apply Agree.bind_same agree_expect
  intro word _ _ _ _ first
  apply Agree.bind_eq agree_expectIdentifier
  intro name
  apply Agree.bind_eq agree_expect.discard
  intro _
  apply Agree.bind_eq agree_diagramKind
  intro kind
  apply Agree.bind_eq agree_expect.discard
  intro _
  apply Agree.bind (agree_items _ _)
  intro body body' same
  apply Agree.bind_eq agree_expect.discard
  intro _
  apply Agree.spanned first
  intro here there span
  simp only [Like, DiagramDecl.mapSpans, Item.mapAllSpans_eq]
  exact congrArg₂ (DiagramDecl.mk name kind) same span

theorem agree_topLevel :
    Agree sim (Like sim fun f => Option.map (TopLevel.mapSpans f)) topLevel topLevel := by
  apply Agree.bind agree_get
  intro c d related
  have same := sim.current related
  have lexemes := sim.lexeme same
  rw [Simulation.isEmpty_eq related]
  refine .ite .rfl (.pure rfl) ?_
  rw [lexemes]
  split
  · exact .bind agree_importDecl fun _ _ same =>
      .pure (congrArg (fun decl => some (TopLevel.imported decl)) same)
  · exact .bind agree_diagramDecl fun _ _ same =>
      .pure (congrArg (fun decl => some (TopLevel.diagram decl)) same)
  · exact .bind_eq (agree_report _ same) fun _ => .bind_eq agree_advance.discard fun _ => .pure rfl

end ArchDiagram.Syntax
