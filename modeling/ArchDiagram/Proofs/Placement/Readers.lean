import ArchDiagram.Proofs.Placement

/-!
Every reader lays out the nodes that it gives, so the spans of a tree are nested whatever the source
is, but for the empty nodes that stand for what is missing.
-/

namespace ArchDiagram.Syntax

open SpanTree

/-- Along the tokens, a reader lays out the trees of what it gives. -/
def Lays {α : Type} (tokens : List Token) (r : Reader α) (trees : α → List SpanTree) : Prop :=
  ∀ ⦃c : Cursor⦄, c.Along tokens → Ensures r c fun a d => Laid tokens c (trees a) d

/-- What was laid out since a cursor whose own token was handled: the part of a node that is read by
now, with the trees below it. -/
structure Opened (tokens : List Token) (c : Cursor) (below : List SpanTree) (d : Cursor) : Prop where
  laid : Laid tokens c below d
  handled : c.Handled d

section Rules

variable {α β : Type} {tokens : List Token} {c m : Cursor} {below : List SpanTree}
  {post : α → Cursor → Prop} {f : β → Reader α} {s : Reader β}

theorem Laid.start (along : c.Along tokens) : Laid tokens c [] c := .nil along .refl

theorem Laid.past {clean : β → Cursor → Prop} (laid : Laid tokens c below m)
    (out : Outcome s m clean) (next : ∀ b d, Laid tokens c below d → Ensures (f b) d post) :
    Ensures (s >>= f) m post :=
  .bind (.of_outcome out) fun b d reached _ => next b d (laid.skip reached)

theorem Laid.child {trees : β → List SpanTree} (laid : Laid tokens c below m)
    (lays : Lays tokens s trees)
    (next : ∀ b d, Laid tokens c (below ++ trees b) d → Ensures (f b) d post) :
    Ensures (s >>= f) m post :=
  .bind (lays laid.along_end) fun b d _ more => next b d (laid.append more)

namespace Opened

theorem skip {d : Cursor} (opened : Opened tokens c below m) (reached : m.Reaches d) :
    Opened tokens c below d :=
  ⟨opened.laid.skip reached, opened.handled.reaches reached⟩

theorem past {clean : β → Cursor → Prop} (opened : Opened tokens c below m)
    (out : Outcome s m clean) (next : ∀ b d, Opened tokens c below d → Ensures (f b) d post) :
    Ensures (s >>= f) m post :=
  .bind (.of_outcome out) fun b d reached _ => next b d (opened.skip reached)

theorem child {trees : β → List SpanTree} (opened : Opened tokens c below m)
    (lays : Lays tokens s trees)
    (next : ∀ b d, Opened tokens c (below ++ trees b) d → Ensures (f b) d post) :
    Ensures (s >>= f) m post :=
  .bind (lays opened.laid.along_end) fun b d reached more =>
    next b d ⟨opened.laid.append more, opened.handled.reaches reached⟩

theorem closed {f : Span → α} {trees : α → List SpanTree} (opened : Opened tokens c below m)
    (shape : ∀ span, trees (f span) = [.node span below]) :
    Ensures (spanFrom c.current >>= fun span => pure (f span)) m fun a d =>
      Opened tokens c (trees a) d := by
  have node := opened.laid.node opened.handled
  exact .of_run rfl .refl ⟨by rw [shape]; exact node, opened.handled⟩

theorem close {f : Span → α} {trees : α → List SpanTree} (opened : Opened tokens c below m)
    (shape : ∀ span, trees (f span) = [.node span below]) :
    Ensures (spanFrom c.current >>= fun span => pure (f span)) m fun a d =>
      Laid tokens c (trees a) d :=
  .mono (opened.closed shape) fun _ _ _ closed => closed.laid

end Opened

theorem Ensures.open_node (along : c.Along tokens) (first : Ensures s c fun _ d => c.Handled d)
    (next : ∀ b d, Opened tokens c [] d → Ensures (f b) d post) : Ensures (s >>= f) c post :=
  .bind first fun b d reached handled => next b d ⟨.nil along reached, handled⟩

theorem Ensures.open_expect {kind : TokenKind} {f : Token → Reader α} (real : kind ≠ .endOfInput)
    (along : c.Along tokens) (next : ∀ d, Opened tokens c [] d → Ensures (f c.current) d post) :
    Ensures (expect kind >>= f) c post := by
  refine .bind (ensures_expect real) fun first d reached holds => ?_
  obtain ⟨rfl, handled⟩ := holds
  exact next d ⟨.nil along reached, handled⟩

end Rules

section Repetition

variable {α : Type} {tokens : List Token} {trees : α → List SpanTree}

theorem composes_laid (tokens : List Token) (trees : α → List SpanTree) :
    Composes (Cursor.Along tokens) fun c as d => Laid tokens c (as.flatMap trees) d where
  kept _ _ along reached := along.reaches reached
  nil _ _ along reached := .nil along reached
  append c m d xs ys left right := by
    rw [List.flatMap_append]
    exact left.append right

theorem Lays.repeatWhile {round : Reader (Option α)}
    (rounds : Lays tokens round fun found => found.toList.flatMap trees) :
    Lays tokens (repeatWhile round) (·.flatMap trees) :=
  fun _ along => .repeatWhile (composes_laid tokens trees) (fun _ => @rounds _) along

theorem Lays.separatedByCommas {item : Reader α} (items : Lays tokens item trees) :
    Lays tokens (separatedByCommas item) (·.flatMap trees) := by
  intro c along
  refine .separatedByCommas (composes_laid tokens trees) (fun m start => ?_) along
  exact .mono (items start) fun a d _ laid => by simpa using laid

theorem Lays.many {closing : TokenKind} {region : Region} {item : Reader (Option α)}
    (items : Lays tokens item fun found => found.toList.flatMap trees) :
    Lays tokens (many closing region item) (·.flatMap trees) :=
  fun _ along => .many (composes_laid tokens trees) (fun _ => @items _) along

end Repetition

section Readers

variable {tokens : List Token}

theorem lays_typeArguments {argument : Reader TypeExpr}
    (arguments : Lays tokens argument fun type => [type.spanTree]) :
    Lays tokens (typeArguments argument) TypeExpr.spanTrees := by
  intro c along
  refine (Laid.start along).past (.discard (outcome_expect (by simp))) fun _ c₁ laid => ?_
  refine laid.child arguments.separatedByCommas fun args c₂ laid => ?_
  refine laid.past (.discard (outcome_expect (by simp))) fun _ c₃ laid => .pure ?_
  rw [TypeExpr.spanTrees_eq, List.map_eq_flatMap]
  exact laid

theorem ensures_typeBase {arguments? : Option (Reader (List TypeExpr))}
    (arguments : ∀ reader ∈ arguments?, Lays tokens reader TypeExpr.spanTrees) {c : Cursor}
    (along : c.Along tokens) : Ensures (typeBase arguments?) c fun type d =>
      Opened tokens c [type.spanTree] d := by
  -- The question mark that may follow belongs to the same node, so it is kept that the first token
  -- was handled.
  refine .current_bind <| .ite (fun isName => ?_) fun _ => ?_
  · refine .open_node along (ensures_take (isTypeName_ne_end isName)) fun _ c₁ opened => ?_
    refine opened.past outcome_isAt fun _ c₂ opened => .ite (fun _ => ?_) fun _ => ?_
    · cases arguments? with
      | some reader =>
        exact opened.child (arguments reader rfl) fun args c₃ opened => opened.closed fun _ => rfl
      | none =>
        refine ensures_advance_report fun c₃ reached => ?_
        refine (opened.skip reached).past (outcome_skipNested _ _) fun _ c₄ opened => ?_
        refine opened.past (.discard (outcome_expect (by simp))) fun _ c₅ opened => ?_
        exact opened.closed fun _ => rfl
    · exact opened.closed fun _ => rfl
  · exact .open_node along (ensures_report _) fun _ c₁ opened => opened.closed fun _ => rfl

theorem lays_typeWith {arguments? : Option (Reader (List TypeExpr))}
    (arguments : ∀ reader ∈ arguments?, Lays tokens reader TypeExpr.spanTrees) :
    Lays tokens (typeWith arguments?) fun type => [type.spanTree] := by
  intro c along
  refine .current_bind <| .bind (ensures_typeBase arguments along) fun base c₁ _ opened => ?_
  refine opened.past (outcome_accept (by simp)) fun _ c₂ opened => .ite (fun _ => ?_) fun _ => ?_
  · exact opened.close fun _ => rfl
  · exact .pure opened.laid

theorem lays_typeExpr (budget : Nat) :
    Lays tokens (typeExpr budget) fun type => [type.spanTree] := by
  induction budget with
  | zero => exact lays_typeWith (by simp)
  | succ budget ih =>
    refine lays_typeWith fun reader member => ?_
    obtain rfl := Option.some.inj member
    exact lays_typeArguments ih

theorem lays_literal : Lays tokens literal fun literal => [literal.spanTree] := by
  intro c along
  refine .current_bind ?_
  split
  · next value found =>
    have real : c.current.kind ≠ .endOfInput := by
      intro ends
      simp [constant?, ends] at found
    refine .open_node along (ensures_take real) fun _ c₁ opened => .value_bind fun _ _ => ?_
    exact opened.close fun _ => rfl
  · exact .open_node along (ensures_report _) fun _ c₁ opened => opened.close fun _ => rfl

theorem lays_param (budget : Nat) : Lays tokens (param budget) fun decl => [decl.spanTree] := by
  intro c along
  refine .current_bind <| .open_node along ensures_expectName fun name c₁ opened => ?_
  refine opened.past (.discard (outcome_expect (by simp))) fun _ c₂ opened => ?_
  exact opened.child (lays_typeExpr budget) fun type c₃ opened => opened.close fun _ => rfl

theorem lays_params (budget : Nat) :
    Lays tokens (params budget) (·.flatMap fun decl => [decl.spanTree]) := by
  intro c along
  refine (Laid.start along).past outcome_isAt fun _ c₁ laid => .ite (fun _ => .pure laid) fun _ => ?_
  refine .mono ((lays_param budget).separatedByCommas laid.along_end) fun params d _ more => ?_
  exact laid.append more

theorem lays_defaultValue :
    Lays tokens defaultValue fun value => value.toList.map (·.spanTree) := by
  intro c along
  refine (Laid.start along).past (outcome_accept (by simp)) fun _ c₁ laid => .ite (fun _ => ?_)
    fun _ => .pure laid
  exact laid.child lays_literal fun value c₂ laid => .pure laid

section Rest

variable {budget : Nat} {visibility : VisibilityMark} {modifiers : List Modifier} {name : String}
  {c d : Cursor}

theorem ensures_fieldRest (opened : Opened tokens c [] d) :
    Ensures (fieldRest budget c.current visibility modifiers name) d fun decl e =>
      Laid tokens c [decl.spanTree] e := by
  refine opened.past (.discard (outcome_expect (by simp))) fun _ c₁ opened => ?_
  refine opened.child (lays_typeExpr budget) fun type c₂ opened => ?_
  refine opened.child lays_defaultValue fun value c₃ opened => ?_
  refine opened.past (.discard (outcome_accept (by simp))) fun _ c₄ opened => ?_
  exact opened.close fun _ => rfl

theorem ensures_methodRest (opened : Opened tokens c [] d) :
    Ensures (methodRest budget c.current visibility modifiers name) d fun decl e =>
      Laid tokens c [decl.spanTree] e := by
  refine opened.past (.discard (outcome_expect (by simp))) fun _ c₁ opened => ?_
  refine opened.child (lays_params budget) fun params c₂ opened => ?_
  refine opened.past (.discard (outcome_expect (by simp))) fun _ c₃ opened => ?_
  refine opened.past (.discard (outcome_expect (by simp))) fun _ c₄ opened => ?_
  refine opened.child (lays_typeExpr budget) fun type c₅ opened => ?_
  refine opened.past (.discard (outcome_accept (by simp))) fun _ c₆ opened => ?_
  refine opened.close fun span => ?_
  simp [MethodDecl.spanTree, List.map_eq_flatMap]

end Rest

theorem lays_fieldOrMethod (budget : Nat) (kind : EntityKind) :
    Lays tokens (fieldOrMethod budget kind) fun found =>
      found.toList.flatMap fun member => [member.spanTree] := by
  intro c along
  have start := Laid.start along
  refine .current_bind <| .ite (fun _ => ?_) fun _ =>
    start.past (outcome_skipUnexpected _) fun _ _ laid => .pure laid
  refine start.past (outcome_visibility c) fun visibility c₁ laid => ?_
  refine laid.past (outcome_modifiers c₁) fun modifiers c₂ laid => ?_
  refine .bind ensures_expectName fun name c₃ reached named => ?_
  -- A mark or a modifier is a token too, so the first one is handled either way.
  have opened : Opened tokens c [] c₃ := ⟨laid.skip reached, named.after laid.reached reached⟩
  refine .ite (fun _ => .pure opened.laid) fun _ => ?_
  refine opened.past outcome_isAt fun _ c₄ opened => .ite (fun _ => ?_) fun _ => ?_
  · exact .bind (ensures_methodRest opened) fun decl d _ laid => .pure laid
  · exact .bind (ensures_fieldRest opened) fun decl d _ laid => .pure laid

theorem ensures_valueDecl {c : Cursor} (along : c.Along tokens)
    (real : c.current.kind ≠ .endOfInput) :
    Ensures valueDecl c fun decl d => Laid tokens c [.node decl.span []] d := by
  refine .bind ensures_advance fun token c₁ reached taken => ?_
  obtain ⟨rfl, rfl⟩ := taken
  have opened : Opened tokens c [] c.advance :=
    ⟨.nil along reached, Cursor.handled_advance real⟩
  exact opened.close fun _ => rfl

theorem lays_enumerationMember (budget : Nat) : Lays tokens (enumerationMember budget) fun found =>
    found.toList.flatMap fun member => [member.spanTree] := by
  intro c along
  refine (Laid.start along).past (outcome_accept (by simp)) fun _ c₁ laid => .ite
    (fun _ => .pure laid) fun _ => .get_bind <| .ite (fun value => ?_) fun _ => ?_
  · have real : c₁.current.kind ≠ .endOfInput := by
      intro ends
      simp [isAtValue, ends, TokenKind.isName] at value
    refine .bind (ensures_valueDecl laid.along_end real) fun decl d _ more => .pure ?_
    exact laid.append more
  · refine .mono (lays_fieldOrMethod budget _ laid.along_end) fun found d _ more => ?_
    exact laid.append more

theorem lays_member (budget : Nat) (kind : EntityKind) : Lays tokens (member budget kind)
    fun found => found.toList.flatMap fun member => [member.spanTree] := by
  intro c along
  refine (Laid.start along).past (outcome_accept (by simp)) fun _ c₁ laid => .ite
    (fun _ => .pure laid) fun _ => .ite (fun _ => ?_) fun _ => ?_
  · exact .mono (lays_enumerationMember budget laid.along_end) fun _ _ _ more => laid.append more
  · exact .mono (lays_fieldOrMethod budget kind laid.along_end) fun _ _ _ more => laid.append more

theorem lays_members (budget : Nat) (kind : EntityKind) : Lays tokens (members budget kind)
    (·.flatMap fun member => [member.spanTree]) := by
  intro c along
  refine (Laid.start along).past (outcome_accept (by simp)) fun _ c₁ laid => .ite (fun _ => ?_)
    fun _ => .pure laid
  refine laid.child (lays_member budget kind).many fun found c₂ laid => ?_
  exact laid.past (.discard (outcome_expect (by simp))) fun _ c₃ laid => .pure laid

omit tokens in
theorem ensures_entityKind (c : Cursor) : Ensures entityKind c fun _ d => c.Handled d := by
  refine .current_bind ?_
  split
  · next kind here =>
    exact .bind (ensures_take (by simp [here])) fun _ _ _ handled => .pure handled
  · exact .bind (ensures_report _) fun _ _ _ handled => .pure handled

theorem lays_entity (budget : Nat) : Lays tokens (entity budget) fun decl => [decl.spanTree] := by
  intro c along
  refine .current_bind <| (Laid.start along).past (outcome_modifiers c) fun _ c₁ laid => ?_
  refine .bind (ensures_entityKind c₁) fun kind c₂ reached named => ?_
  have opened : Opened tokens c [] c₂ := ⟨laid.skip reached, named.after laid.reached reached⟩
  refine opened.past outcome_expectIdentifier fun _ c₃ opened => ?_
  refine opened.past (outcome_stereotype c₃) fun _ c₄ opened => ?_
  refine opened.past (outcome_namesBehind _ c₄) fun _ c₅ opened => ?_
  refine opened.past (outcome_namesBehind _ c₅) fun _ c₆ opened => ?_
  refine opened.child (lays_members budget kind) fun members c₇ opened => opened.close fun span => ?_
  simp [EntityDecl.spanTree, List.map_eq_flatMap]

theorem lays_relation : Lays tokens relation fun decl => [.node decl.span []] := by
  intro c along
  refine .open_expect (by simp) along fun c₁ opened => ?_
  refine opened.past outcome_advance fun _ c₂ opened => .value_bind fun _ _ => ?_
  refine opened.past outcome_expectIdentifier fun _ c₃ opened => ?_
  exact opened.past (outcome_attributes c₃) fun _ c₄ opened => opened.close fun _ => rfl

theorem lays_note : Lays tokens note fun decl => [.node decl.span []] := by
  intro c along
  refine .open_expect (by simp) along fun c₁ opened => ?_
  refine opened.past (outcome_expectText (by simp)) fun _ c₂ opened => ?_
  exact opened.past (outcome_noteTarget c₂) fun _ c₃ opened => opened.close fun _ => rfl

theorem lays_style : Lays tokens style fun decl => [.node decl.span []] := by
  intro c along
  refine .open_expect (by simp) along fun c₁ opened => ?_
  refine opened.past outcome_expectIdentifier fun _ c₂ opened => ?_
  refine opened.past (.discard (outcome_expect (by simp))) fun _ c₃ opened => ?_
  refine opened.past (outcome_settings (by simp) outcome_styleValue c₃) fun _ c₄ opened => ?_
  refine opened.past (.discard (outcome_expect (by simp))) fun _ c₅ opened => ?_
  exact opened.close fun _ => rfl

theorem lays_layout : Lays tokens layout fun decl => [.node decl.span []] := by
  intro c along
  refine .open_expect (by simp) along fun c₁ opened => ?_
  refine opened.past outcome_expectIdentifier fun _ c₂ opened => ?_
  refine opened.past (.discard (outcome_expect (by simp))) fun _ c₃ opened => ?_
  refine opened.past (.discard (outcome_expect (by simp))) fun _ c₄ opened => ?_
  refine opened.past (outcome_coordinate c₄) fun _ c₅ opened => ?_
  refine opened.past (.discard (outcome_expect (by simp))) fun _ c₆ opened => ?_
  refine opened.past (outcome_coordinate c₆) fun _ c₇ opened => ?_
  refine opened.past (.discard (outcome_expect (by simp))) fun _ c₈ opened => ?_
  exact opened.close fun _ => rfl

theorem lays_declaration (budget : Nat) (region : Region) :
    Lays tokens (declaration budget region) fun found =>
      found.toList.flatMap fun decl => [decl.spanTree] := by
  have some_ {α : Type} {reader : Reader α} {tree : α → SpanTree} {make : α → Declaration}
      (lays : Lays tokens reader fun a => [tree a]) (shape : ∀ a, (make a).spanTree = tree a) :
      Lays tokens (reader >>= fun a => pure (some (make a))) fun found =>
        found.toList.flatMap fun decl => [decl.spanTree] := by
    intro c along
    refine .bind (lays along) fun a d _ laid => .pure ?_
    simpa [shape] using laid
  have stray : Lays tokens (skipUnexpected region >>= fun _ => pure none) fun found =>
      found.toList.flatMap fun decl : Declaration => [decl.spanTree] := fun c along =>
    (Laid.start along).past (outcome_skipUnexpected region) fun _ _ laid => .pure laid
  intro c along
  refine .get_bind ?_
  split
  · exact some_ lays_layout (fun _ => rfl) along
  · exact some_ lays_note (fun _ => rfl) along
  · exact some_ lays_style (fun _ => rfl) along
  · exact some_ (lays_entity budget) (fun _ => rfl) along
  · exact some_ (lays_entity budget) (fun _ => rfl) along
  · exact .ite (fun _ => some_ lays_relation (fun _ => rfl) along) fun _ => stray along
  · exact stray along

theorem lays_packageWith {body? : Option (Reader (List Item))}
    (bodies : ∀ reader ∈ body?, Lays tokens reader Item.spanTrees) :
    Lays tokens (packageWith body?) fun item => [item.spanTree] := by
  intro c along
  refine .open_expect (by simp) along fun c₁ opened => ?_
  refine opened.past outcome_expectIdentifier fun name c₂ opened => ?_
  have close {body : List Item} {d : Cursor} (opened : Opened tokens c (Item.spanTrees body) d) :
      Ensures (do
        discard (expect (.mark .rightBrace))
        return Item.package name body (← spanFrom c.current)) d fun item e =>
          Laid tokens c [item.spanTree] e :=
    opened.past (.discard (outcome_expect (by simp))) fun _ e opened => opened.close fun _ => rfl
  cases body? with
  | some body =>
    refine opened.past (outcome_expect (by simp)) fun brace c₃ opened => ?_
    exact opened.child (bodies body rfl) fun items c₄ opened => close opened
  | none =>
    refine ensures_expect_report fun c₃ reached => ?_
    have opened := opened.skip reached
    refine .ite (fun _ => ?_) fun _ => close opened
    exact opened.past (outcome_skipNested _ _) fun _ c₄ opened => close opened

theorem lays_item {budget : Nat} {region : Region} {package : Reader Item}
    (packages : Lays tokens package fun item => [item.spanTree]) :
    Lays tokens (item budget region package) fun found =>
      found.toList.flatMap fun item => [item.spanTree] := by
  intro c along
  refine (Laid.start along).past outcome_isAt fun _ c₁ laid => .ite (fun _ => ?_) fun _ => ?_
  · exact laid.child packages fun package d laid => .pure laid
  · refine laid.child (lays_declaration budget region) fun found d laid => .pure ?_
    cases found with
    | none => exact laid
    | some decl => exact laid

theorem lays_items (budget : Nat) (region : Region) :
    Lays tokens (items budget region) Item.spanTrees := by
  have lays {budget : Nat} {region : Region} {body? : Option (Reader (List Item))}
      (bodies : ∀ reader ∈ body?, Lays tokens reader Item.spanTrees) :
      Lays tokens (many (.mark .rightBrace) region (item budget region (packageWith body?)))
        Item.spanTrees := by
    intro c along
    refine .mono ((lays_item (lays_packageWith bodies)).many along) fun items d _ laid => ?_
    rw [Item.spanTrees_eq, List.map_eq_flatMap]
    exact laid
  induction budget generalizing region with
  | zero => exact lays (by simp)
  | succ budget ih =>
    refine lays fun reader member => ?_
    obtain rfl := Option.some.inj member
    exact ih .packageBody

theorem lays_importDecl : Lays tokens importDecl fun decl => [.node decl.span []] := by
  intro c along
  refine .open_expect (by simp) along fun c₁ opened => ?_
  refine opened.past (outcome_expectText (by simp)) fun _ c₂ opened => ?_
  refine opened.past (.discard (outcome_accept (by simp))) fun _ c₃ opened => ?_
  exact opened.close fun _ => rfl

theorem lays_diagramDecl : Lays tokens diagramDecl fun decl => [decl.spanTree] := by
  intro c along
  refine .open_expect (by simp) along fun c₁ opened => ?_
  refine opened.past outcome_expectIdentifier fun _ c₂ opened => ?_
  refine opened.past (.discard (outcome_expect (by simp))) fun _ c₃ opened => ?_
  refine opened.past (outcome_diagramKind c₃) fun _ c₄ opened => ?_
  refine opened.past (.discard (outcome_expect (by simp))) fun _ c₅ opened => ?_
  refine opened.child (lays_items nestingLimit _) fun body c₆ opened => ?_
  refine opened.past (.discard (outcome_expect (by simp))) fun _ c₇ opened => ?_
  exact opened.close fun _ => rfl

theorem lays_topLevel : Lays tokens topLevel fun found => found.toList.flatMap (·.spanTrees) := by
  intro c along
  have start := Laid.start along
  refine .get_bind <| .ite (fun _ => .pure start) fun _ => ?_
  split
  · exact start.child lays_importDecl fun decl d laid => .pure laid
  · exact start.child lays_diagramDecl fun decl d laid => .pure laid
  · refine start.past (outcome_report _) fun _ c₁ laid => ?_
    exact laid.past (.discard outcome_advance) fun _ c₂ laid => .pure laid

end Readers

theorem along_ofTokens (source : String) :
    (Cursor.ofTokens (Lexer.lex source).tokens).Along (Lexer.lex source).tokens where
  known token member := by rwa [remaining_ofTokens] at member
  taken token member := by
    rw [remaining_ofTokens]
    exact .inl member
  forward token member := by
    rw [Lexer.rest_ofTokens] at member
    exact Lexer.forward_of_mem_tokens member
  apart := by
    rw [remaining_ofTokens]
    exact (Lexer.lex_accounted source).apart
  lastStop_le := Nat.zero_le _

/-- The nodes of a parsed program are laid out along the tokens of its source. -/
theorem laid_of_parse {source : String} {parsed : Parsed} (ended : parse source = .ok parsed) :
    ∀ tree ∈ parsed.program.spanTrees,
      tree.NestedBut (fun whole below =>
        below.Dangles (Lexer.lex source).tokens parsed.errors whole) ∧
      tree.All fun span => ∃ token ∈ (Lexer.lex source).tokens, span.start = token.position := by
  obtain ⟨last, run, errors, -⟩ := run_of_parse ended
  rw [program, run_current_bind] at run
  obtain ⟨parts, d, loop, final⟩ := run_of_bind run
  obtain ⟨whole, rfl⟩ := Prod.mk.inj (Except.ok.inj final)
  obtain ⟨-, laid⟩ := lays_topLevel.repeatWhile (along_ofTokens source) loop
  intro tree member
  have inside : tree ∈ parts.flatMap (·.spanTrees) := by
    rw [← whole] at member
    exact mem_spanTrees_of_parts member
  refine ⟨(laid.nested tree inside).mono fun span below dangles => dangles.mono ?_,
    laid.begins tree inside⟩
  intro error reported
  rw [errors]
  exact List.mem_append_right _ (List.mem_reverse.2 reported)

/-- Whatever the source is, no node starts before the one above it, none stops before it starts, and
those below one node stand one behind the other. A node that does not lie inside the one above it is
empty: it stands for what is missing, at the next token, where this is reported. -/
theorem nested_but_dangling {source : String} {parsed : Parsed} (ended : parse source = .ok parsed) :
    ∀ tree ∈ parsed.program.spanTrees, tree.NestedBut fun whole below =>
      below.Dangles (Lexer.lex source).tokens parsed.errors whole :=
  fun tree member => (laid_of_parse ended tree member).1

/-- A parameter without its type, and a type without its argument. -/
theorem nested_but_dangling_twice : ∃ parsed,
    parse "diagram D : class \x7b class A \x7b f(x: ) : List< \x7d \x7d" = .ok parsed ∧
    parsed.program.spanTrees.flatMap (·.links) =
      [(⟨⟨0, 1, 1⟩, 48⟩, ⟨⟨20, 1, 21⟩, 46⟩), (⟨⟨20, 1, 21⟩, 46⟩, ⟨⟨30, 1, 31⟩, 44⟩),
        (⟨⟨30, 1, 31⟩, 44⟩, ⟨⟨32, 1, 33⟩, 34⟩), (⟨⟨32, 1, 33⟩, 34⟩, ⟨⟨35, 1, 36⟩, 35⟩),
        (⟨⟨30, 1, 31⟩, 44⟩, ⟨⟨39, 1, 40⟩, 44⟩), (⟨⟨39, 1, 40⟩, 44⟩, ⟨⟨45, 1, 46⟩, 45⟩)] ∧
    ∀ tree ∈ parsed.program.spanTrees, tree.NestedBut fun whole below => below.Dangles
      (Lexer.lex "diagram D : class \x7b class A \x7b f(x: ) : List< \x7d \x7d").tokens
      parsed.errors whole := by
  have known : (parse "diagram D : class \x7b class A \x7b f(x: ) : List< \x7d \x7d").toOption.map
      (fun parsed => parsed.program.spanTrees.flatMap (·.links)) =
      some [(⟨⟨0, 1, 1⟩, 48⟩, ⟨⟨20, 1, 21⟩, 46⟩), (⟨⟨20, 1, 21⟩, 46⟩, ⟨⟨30, 1, 31⟩, 44⟩),
        (⟨⟨30, 1, 31⟩, 44⟩, ⟨⟨32, 1, 33⟩, 34⟩), (⟨⟨32, 1, 33⟩, 34⟩, ⟨⟨35, 1, 36⟩, 35⟩),
        (⟨⟨30, 1, 31⟩, 44⟩, ⟨⟨39, 1, 40⟩, 44⟩), (⟨⟨39, 1, 40⟩, 44⟩, ⟨⟨45, 1, 46⟩, 45⟩)] := by
    decide +kernel
  obtain ⟨parsed, ended, links⟩ := ok_of_toOption_map known
  exact ⟨parsed, ended, links, nested_but_dangling ended⟩

/-- The type that a field lacks stands behind the field. -/
theorem not_nested_missing_type : ∃ parsed,
    parse "diagram D : class \x7b class A \x7b x: \x7d \x7d" = .ok parsed ∧
    (⟨⟨30, 1, 31⟩, 32⟩, ⟨⟨33, 1, 34⟩, 33⟩) ∈ parsed.program.spanTrees.flatMap (·.links) ∧
    ¬ ∀ tree ∈ parsed.program.spanTrees, tree.Nested := by
  have known : (parse "diagram D : class \x7b class A \x7b x: \x7d \x7d").toOption.map
      (fun parsed => parsed.program.spanTrees.flatMap (·.links)) =
      some [(⟨⟨0, 1, 1⟩, 36⟩, ⟨⟨20, 1, 21⟩, 34⟩), (⟨⟨20, 1, 21⟩, 34⟩, ⟨⟨30, 1, 31⟩, 32⟩),
        (⟨⟨30, 1, 31⟩, 32⟩, ⟨⟨33, 1, 34⟩, 33⟩)] := by decide +kernel
  obtain ⟨parsed, ended, links⟩ := ok_of_toOption_map known
  have link : (⟨⟨30, 1, 31⟩, 32⟩, ⟨⟨33, 1, 34⟩, 33⟩) ∈
      parsed.program.spanTrees.flatMap (·.links) := by simp [links]
  refine ⟨parsed, ended, link, fun nested => ?_⟩
  obtain ⟨tree, member, inside⟩ := List.mem_flatMap.1 link
  obtain ⟨-, -, stops⟩ := (nested tree member).links _ inside
  exact absurd stops (by decide)

end ArchDiagram.Syntax
