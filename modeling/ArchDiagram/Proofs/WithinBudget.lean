import ArchDiagram.Proofs.Grammar.Soundness
import ArchDiagram.Proofs.Yields

/-!
The trees that the parser builds. Types and packages are nested no deeper than the budget that is
passed down allows, and a type is built from the names that the tokens give. This holds of every
list of tokens, whatever is reported about it.
-/

namespace ArchDiagram

section

variable (names : String → Prop)

/-- A type as it is read with a budget: generic types are nested no deeper, their arguments are
never missing, and no question mark stands for another one. -/
inductive TypeExpr.Within : Nat → TypeExpr → Prop
  | simple {budget : Nat} {name : String} {span : Span} : names name →
      Within budget (.simple name span)
  | generic {budget : Nat} {base : String} {args : List TypeExpr} {span : Span} : names base →
      args ≠ [] → (∀ arg ∈ args, Within budget arg) → Within (budget + 1) (.generic base args span)
  | nullable {budget : Nat} {inner : TypeExpr} {span : Span} : Within budget inner →
      (∀ other span, inner ≠ .nullable other span) → Within budget (.nullable inner span)

def Member.Within (budget : Nat) : Member → Prop
  | .field decl => decl.type.Within names budget
  | .method decl =>
    (∀ param ∈ decl.params, param.type.Within names budget) ∧ decl.returnType.Within names budget
  | .value _ => True

def Declaration.Within (budget : Nat) : Declaration → Prop
  | .entity decl => ∀ member ∈ decl.members, member.Within names budget
  | _ => True

/-- An item as it is read with a budget. Where nothing is left, packages are empty. -/
inductive Item.Within : Nat → Item → Prop
  | declaration {budget : Nat} {decl : Declaration} : decl.Within names budget →
      Within budget (.declaration decl)
  | package {budget : Nat} {name : String} {body : List Item} {span : Span} :
      (∀ item ∈ body, Within budget item) → Within (budget + 1) (.package name body span)
  | emptied {name : String} {span : Span} : Within 0 (.package name [] span)

def DiagramDecl.Within (decl : DiagramDecl) : Prop :=
  ∀ item ∈ decl.body, item.Within names Syntax.nestingLimit

def Program.Within (program : Program) : Prop :=
  ∀ diagram ∈ program.diagrams, diagram.Within names

end

namespace Syntax

section Readers

variable {known : Token → Prop} {names : String → Prop}
  (named : ∀ token, known token → isTypeName token.kind = true → names token.text)
  (any_ : names "any")

include named any_

omit named any_ in
theorem yields_typeArguments {argument : Reader TypeExpr} {given : TypeExpr → Prop}
    (arguments : Yields known argument given) :
    Yields known (typeArguments argument) fun args => args ≠ [] ∧ ∀ arg ∈ args, given arg := by
  refine .bind (yields_expect (by simp)).discard fun _ _ => ?_
  refine .bind arguments.separatedByCommas fun args holds => ?_
  exact .bind (yields_expect (by simp)).discard fun _ _ => .pure holds

theorem yields_typeBase {budget : Nat} {arguments? : Option (Reader (List TypeExpr))}
    (arguments : ∀ reader ∈ arguments?, ∃ lower, budget = lower + 1 ∧
      Yields known reader fun args => args ≠ [] ∧ ∀ arg ∈ args, arg.Within names lower) :
    Yields known (typeBase arguments?) fun type => type.Within names budget ∧
      ∀ other span, type ≠ .nullable other span := by
  have simple {first : Token} {name : String} (holds : names name) :
      Yields known (spanFrom first >>= fun span => pure (TypeExpr.simple name span)) fun type =>
        type.Within names budget ∧ ∀ other span, type ≠ .nullable other span :=
    .spanned fun _ => ⟨.simple holds, by simp⟩
  refine .bind yields_current fun first holds => .ite (fun isName => ?_) fun _ => ?_
  · have real : first.kind ≠ .endOfInput := by
      intro ends
      simp [ends, isTypeName] at isName
    have name := named first (holds real) isName
    refine .bind yields_advance.discard fun _ _ => .bind yields_isAt fun _ _ =>
      .ite (fun _ => ?_) fun _ => simple name
    cases arguments? with
    | none =>
      -- Nothing is left of the budget: the arguments are skipped, and the name alone is the type.
      refine .bind yields_advance fun _ _ => .bind (yields_report _ _) fun _ _ => ?_
      refine .bind (yields_skipNested _ _) fun _ _ => ?_
      exact .bind (yields_expect (by simp)).discard fun _ _ => simple name
    | some reader =>
      obtain ⟨lower, rfl, args⟩ := arguments reader rfl
      refine .bind args fun args holds => .spanned fun span => ⟨?_, by simp⟩
      exact .generic name holds.1 holds.2
  · exact .bind (yields_report _ _) fun _ _ => simple any_

theorem yields_typeWith {budget : Nat} {arguments? : Option (Reader (List TypeExpr))}
    (arguments : ∀ reader ∈ arguments?, ∃ lower, budget = lower + 1 ∧
      Yields known reader fun args => args ≠ [] ∧ ∀ arg ∈ args, arg.Within names lower) :
    Yields known (typeWith arguments?) (TypeExpr.Within names budget) := by
  refine .bind yields_current fun first _ => ?_
  refine .bind (yields_typeBase named any_ arguments) fun base holds => ?_
  refine .bind (yields_accept (by simp)) fun _ _ => .ite (fun _ => ?_) fun _ => .pure holds.1
  exact .spanned fun _ => .nullable holds.1 holds.2

theorem yields_typeExpr (budget : Nat) :
    Yields known (typeExpr budget) (TypeExpr.Within names budget) := by
  induction budget with
  | zero => exact yields_typeWith named any_ (by simp)
  | succ budget ih =>
    refine yields_typeWith named any_ fun reader member => ⟨budget, rfl, ?_⟩
    obtain rfl := Option.some.inj member
    exact yields_typeArguments ih

theorem yields_param (budget : Nat) :
    Yields known (param budget) fun param => param.type.Within names budget := by
  refine .bind yields_current fun _ _ => ?_
  refine .bind (.of_outcome fun _ => outcome_expectName) fun _ _ => ?_
  refine .bind (yields_expect (by simp)).discard fun _ _ => ?_
  exact .bind (yields_typeExpr named any_ budget) fun _ holds => .spanned fun _ => holds

theorem yields_params (budget : Nat) : Yields known (params budget) fun params =>
    ∀ param ∈ params, param.type.Within names budget := by
  refine .bind yields_isAt fun _ _ => .ite (fun _ => .pure (by simp)) fun _ => ?_
  exact (yields_param named any_ budget).separatedByCommas.mono fun _ holds => holds.2

omit named any_ in
theorem yields_separator {kind : TokenKind} (real : kind ≠ .endOfInput) :
    Yields known (discard (accept kind)) fun _ => True := (yields_accept real).discard

theorem yields_fieldRest (budget : Nat) (first : Token) (visibility : VisibilityMark)
    (modifiers : List Modifier) (name : String) :
    Yields known (fieldRest budget first visibility modifiers name) fun decl =>
      decl.type.Within names budget := by
  refine .bind (yields_expect (by simp)).discard fun _ _ => ?_
  refine .bind (yields_typeExpr named any_ budget) fun type holds => ?_
  refine .bind (.of_outcome outcome_defaultValue) fun _ _ => ?_
  exact .bind (yields_separator (by simp)) fun _ _ => .spanned fun _ => holds

theorem yields_methodRest (budget : Nat) (first : Token) (visibility : VisibilityMark)
    (modifiers : List Modifier) (name : String) :
    Yields known (methodRest budget first visibility modifiers name) fun decl =>
      (∀ param ∈ decl.params, param.type.Within names budget) ∧
      decl.returnType.Within names budget := by
  refine .bind (yields_expect (by simp)).discard fun _ _ => ?_
  refine .bind (yields_params named any_ budget) fun params given => ?_
  refine .bind (yields_expect (by simp)).discard fun _ _ => ?_
  refine .bind (yields_expect (by simp)).discard fun _ _ => ?_
  refine .bind (yields_typeExpr named any_ budget) fun type holds => ?_
  exact .bind (yields_separator (by simp)) fun _ _ => .spanned fun _ => ⟨given, holds⟩

theorem yields_fieldOrMethod (budget : Nat) (kind : EntityKind) :
    Yields known (fieldOrMethod budget kind) fun found =>
      ∀ member ∈ found, member.Within names budget := by
  have none_ : ∀ member ∈ (none : Option Member), member.Within names budget := by simp
  refine .bind yields_current fun first _ => .ite (fun _ => ?_) fun _ =>
    .bind (yields_skipUnexpected _) fun _ _ => .pure none_
  refine .bind (.of_outcome outcome_visibility) fun visibility _ => ?_
  refine .bind (.of_outcome outcome_modifiers) fun modifiers _ => ?_
  refine .bind (.of_outcome fun _ => outcome_expectName) fun name _ =>
    .ite (fun _ => .pure none_) fun _ => .bind yields_isAt fun _ _ => .ite (fun _ => ?_) fun _ => ?_
  · refine .bind (yields_methodRest named any_ ..) fun decl holds => .pure ?_
    rintro member ⟨⟩
    exact holds
  · refine .bind (yields_fieldRest named any_ ..) fun decl holds => .pure ?_
    rintro member ⟨⟩
    exact holds

theorem yields_enumerationMember (budget : Nat) :
    Yields known (enumerationMember budget) fun found =>
      ∀ member ∈ found, member.Within names budget := by
  refine .bind (yields_accept (by simp)) fun _ _ => .ite (fun _ => .pure (by simp)) fun _ => ?_
  refine yields_get_bind fun c => .ite (fun _ => ?_) fun _ =>
    yields_fieldOrMethod named any_ budget _
  have value : Yields known valueDecl fun _ => True :=
    .bind yields_advance fun _ _ => .spanned fun _ => trivial
  refine .bind value fun decl _ => .pure ?_
  rintro member ⟨⟩
  trivial

theorem yields_member (budget : Nat) (kind : EntityKind) :
    Yields known (member budget kind) fun found =>
      ∀ member ∈ found, member.Within names budget := by
  refine .bind (yields_accept (by simp)) fun _ _ => .ite (fun _ => .pure (by simp)) fun _ => ?_
  exact .ite (fun _ => yields_enumerationMember named any_ budget) fun _ =>
    yields_fieldOrMethod named any_ budget kind

theorem yields_members (budget : Nat) (kind : EntityKind) :
    Yields known (members budget kind) fun found =>
      ∀ member ∈ found, member.Within names budget := by
  refine .bind (yields_accept (by simp)) fun _ _ => .ite (fun _ => ?_) fun _ => .pure (by simp)
  refine .bind (yields_member named any_ budget kind).many fun found holds => ?_
  exact .bind (yields_expect (by simp)).discard fun _ _ => .pure holds

theorem yields_entity (budget : Nat) : Yields known (entity budget) fun decl =>
    ∀ member ∈ decl.members, member.Within names budget := by
  refine .bind yields_current fun _ _ => .bind (.of_outcome outcome_modifiers) fun _ _ => ?_
  refine .bind (.of_outcome outcome_entityKind) fun kind _ => ?_
  refine .bind (yields_expectText (by simp)) fun _ _ => ?_
  refine .bind (.of_outcome outcome_stereotype) fun _ _ => ?_
  refine .bind (.of_outcome (outcome_namesBehind _)) fun _ _ => ?_
  refine .bind (.of_outcome (outcome_namesBehind _)) fun _ _ => ?_
  exact .bind (yields_members named any_ budget kind) fun _ holds => .spanned fun _ => holds

omit named any_ in
theorem yields_relation : Yields known relation fun _ => True := by
  refine .bind (yields_expect (by simp)) fun _ _ => .bind yields_advance fun symbol _ => ?_
  have operator : Yields known (liftM (relationOperator symbol.text) : Reader RelationOperator)
      fun _ => True := by
    cases relationOperator symbol.text with
    | ok operator => exact .pure trivial
    | error fault =>
      intro c d a _ run
      cases run
  refine .bind operator fun _ _ => .bind (yields_expectText (by simp)) fun _ _ => ?_
  exact .bind (.of_outcome outcome_attributes) fun _ _ => .spanned fun _ => trivial

theorem yields_declaration (budget : Nat) (region : Region) :
    Yields known (declaration budget region) fun found =>
      ∀ decl ∈ found, decl.Within names budget := by
  have stray : Yields known (skipUnexpected region >>= fun _ => pure (none : Option Declaration))
      fun found => ∀ decl ∈ found, decl.Within names budget :=
    .bind (yields_skipUnexpected region) fun _ _ => .pure (by simp)
  have entities : Yields known (entity budget >>= fun decl => pure (some (Declaration.entity decl)))
      fun found => ∀ decl ∈ found, decl.Within names budget := by
    refine .bind (yields_entity named any_ budget) fun decl holds => .pure ?_
    rintro _ ⟨⟩
    exact holds
  refine yields_get_bind fun c => ?_
  split
  · exact .bind (.of_outcome outcome_layout) fun _ _ => .pure (by rintro _ ⟨⟩; trivial)
  · exact .bind (.of_outcome outcome_note) fun _ _ => .pure (by rintro _ ⟨⟩; trivial)
  · exact .bind (.of_outcome outcome_style) fun _ _ => .pure (by rintro _ ⟨⟩; trivial)
  · exact entities
  · exact entities
  · exact .ite (fun _ => .bind yields_relation fun _ _ => .pure (by rintro _ ⟨⟩; trivial))
      fun _ => stray
  · exact stray

omit named any_ in
theorem yields_packageWith {budget : Nat} {body? : Option (Reader (List Item))}
    (bodies : ∀ reader ∈ body?, ∃ lower, budget = lower + 1 ∧
      Yields known reader fun body => ∀ item ∈ body, item.Within names lower)
    (deepest : body? = none → budget = 0) :
    Yields known (packageWith body?) (Item.Within names budget) := by
  refine .bind (yields_expect (by simp)) fun _ _ => ?_
  refine .bind (yields_expectText (by simp)) fun _ _ => ?_
  refine .bind (yields_expect (by simp)) fun brace _ => ?_
  have closes {body : List Item} {name : String} {first : Token}
      (holds : ∀ span, (Item.package name body span).Within names budget) :
      Yields known (discard (expect (.mark .rightBrace)) >>= fun _ => spanFrom first >>= fun span =>
        pure (.package name body span)) (Item.Within names budget) :=
    .bind (yields_expect (by simp)).discard fun _ _ => .spanned holds
  cases body? with
  | none =>
    obtain rfl := deepest rfl
    have empty : Yields known (pure [] : Reader (List Item)) (· = []) := .pure rfl
    refine .bind (yields_report _ _) fun _ _ => .ite (fun _ => ?_) fun _ => ?_
    · refine .bind (yields_skipNested _ _) fun _ _ => .bind empty ?_
      rintro _ rfl
      exact closes fun _ => .emptied
    · refine .bind empty ?_
      rintro _ rfl
      exact closes fun _ => .emptied
  | some body =>
    obtain ⟨lower, rfl, items⟩ := bodies body rfl
    exact .bind items fun _ holds => closes fun _ => .package holds

theorem yields_item {budget : Nat} {package : Reader Item}
    (packages : Yields known package (Item.Within names budget)) (region : Region) :
    Yields known (item budget region package) fun found =>
      ∀ item ∈ found, item.Within names budget := by
  refine .bind yields_isAt fun _ _ => .ite (fun _ => ?_) fun _ => ?_
  · refine .bind packages fun item holds => .pure ?_
    rintro _ ⟨⟩
    exact holds
  · refine .bind (yields_declaration named any_ budget region) fun found holds => .pure ?_
    intro item member
    obtain ⟨decl, inside, rfl⟩ := Option.map_eq_some_iff.1 member
    exact .declaration (holds decl inside)

theorem yields_items (budget : Nat) (region : Region) :
    Yields known (items budget region) fun body => ∀ item ∈ body, item.Within names budget := by
  induction budget generalizing region with
  | zero => exact (yields_item named any_ (yields_packageWith (by simp) fun _ => rfl) region).many
  | succ budget ih =>
    have packages : Yields known (packageWith (some (items budget .packageBody)))
        (Item.Within names (budget + 1)) := by
      refine yields_packageWith (fun reader member => ?_) (by simp)
      obtain rfl := Option.some.inj member
      exact ⟨budget, rfl, ih .packageBody⟩
    exact (yields_item named any_ packages region).many

theorem yields_diagramDecl : Yields known diagramDecl (DiagramDecl.Within names) := by
  refine .bind (yields_expect (by simp)) fun _ _ => ?_
  refine .bind (yields_expectText (by simp)) fun _ _ => ?_
  refine .bind (yields_expect (by simp)).discard fun _ _ => ?_
  refine .bind (.of_outcome outcome_diagramKind) fun _ _ => ?_
  refine .bind (yields_expect (by simp)).discard fun _ _ => ?_
  refine .bind (yields_items named any_ nestingLimit .diagramBody) fun body holds => ?_
  exact .bind (yields_expect (by simp)).discard fun _ _ => .spanned fun _ => holds

theorem yields_topLevel : Yields known topLevel fun found =>
    ∀ part ∈ found, ∀ diagram, part = .diagram diagram → diagram.Within names := by
  refine yields_get_bind fun c => .ite (fun _ => .pure (by simp)) fun _ => ?_
  split
  · exact .bind (.of_outcome outcome_importDecl) fun _ _ => .pure (by rintro _ ⟨⟩; simp)
  · refine .bind (yields_diagramDecl named any_) fun decl holds => .pure ?_
    rintro _ ⟨⟩ diagram ⟨⟩
    exact holds
  · exact .bind (yields_report _ _) fun _ _ => .bind yields_advance.discard fun _ _ =>
      .pure (by rintro _ ⟨⟩; simp)

theorem yields_program : Yields known program (Program.Within names) := by
  refine .bind yields_current fun _ _ => ?_
  refine .bind (yields_topLevel named any_).repeatWhile fun parts holds => ?_
  refine .bind yields_current fun _ _ => .pure fun diagram member => ?_
  obtain ⟨part, inside, shown⟩ := List.mem_filterMap.1 member
  cases part with
  | diagram decl =>
    obtain rfl := Option.some.inj shown
    exact holds _ inside decl rfl
  | _ => simp at shown

end Readers

/-- Every program that the parser builds is as its budget allows. -/
theorem within_of_parseTokens {tokens : List Token} {parsed : Parsed} {names : String → Prop}
    (named : ∀ token ∈ tokens, isTypeName token.kind = true → names token.text) (any_ : names "any")
    (run : parseTokens tokens = .ok parsed) : parsed.program.Within names := by
  have known : ∀ token ∈ (Cursor.ofTokens tokens).rest, token ∈ tokens := fun token member =>
    (List.takeWhile_prefix _).subset member
  rw [parseTokens] at run
  cases ends : program.run (.ofTokens tokens) with
  | error fault =>
    rw [ends] at run
    cases run
  | ok found =>
    rw [ends] at run
    rw [← Except.ok.inj run]
    exact (yields_program named any_ known ends).1

end Syntax

end ArchDiagram
