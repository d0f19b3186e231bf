import ArchDiagram.Proofs.Acceptance

/-!
The spans of a tree that was parsed without a report. A node spans its own tokens. So it lies inside
the node above it, and nodes side by side stand one behind the other.
-/

namespace ArchDiagram

/-- What is left of a tree if only its spans are kept: a node with the nodes below it, in order. -/
inductive SpanTree
  | node (span : Span) (below : List SpanTree)

/-- A stretch of a source, whose line and column are those of its start, both counted from 1. -/
structure Span.Located (source : List Char) (span : Span) : Prop where
  forward : span.start.offset < span.stop
  bounded : span.stop ≤ source.length
  line : span.start.line = (source.take span.start.offset).count '\n' + 1
  column : span.start.column =
    ((source.take span.start.offset).reverse.takeWhile (· ≠ '\n')).length + 1

namespace SpanTree

def span : SpanTree → Span
  | node span _ => span

def Inside (tree : SpanTree) (whole : Span) : Prop :=
  whole.start.offset ≤ tree.span.start.offset ∧ tree.span.stop ≤ whole.stop

def Before (tree next : SpanTree) : Prop := tree.span.stop ≤ next.span.start.offset

/-- Every node stands in the source, inside the node above it and behind the one before it. -/
inductive WellPlaced (source : List Char) : SpanTree → Prop
  | node {span : Span} {below : List SpanTree} : span.Located source →
      (∀ tree ∈ below, tree.WellPlaced source) → (∀ tree ∈ below, tree.Inside span) →
      below.Pairwise Before → WellPlaced source (.node span below)

end SpanTree

mutual

def TypeExpr.spanTree : TypeExpr → SpanTree
  | .simple _ span => .node span []
  | .generic _ args span => .node span (TypeExpr.spanTrees args)
  | .nullable inner span => .node span [inner.spanTree]

def TypeExpr.spanTrees : List TypeExpr → List SpanTree
  | [] => []
  | type :: rest => type.spanTree :: TypeExpr.spanTrees rest

end

def Literal.spanTree (literal : Literal) : SpanTree := .node literal.span []

def FieldDecl.spanTree (decl : FieldDecl) : SpanTree :=
  .node decl.span (decl.type.spanTree :: decl.defaultValue.toList.map (·.spanTree))

def ParamDecl.spanTree (decl : ParamDecl) : SpanTree := .node decl.span [decl.type.spanTree]

def MethodDecl.spanTree (decl : MethodDecl) : SpanTree :=
  .node decl.span (decl.params.map (·.spanTree) ++ [decl.returnType.spanTree])

def Member.spanTree : Member → SpanTree
  | .field decl => decl.spanTree
  | .method decl => decl.spanTree
  | .value decl => .node decl.span []

def EntityDecl.spanTree (decl : EntityDecl) : SpanTree :=
  .node decl.span (decl.members.map (·.spanTree))

def Declaration.spanTree : Declaration → SpanTree
  | .entity decl => decl.spanTree
  | .relation decl => .node decl.span []
  | .note decl => .node decl.span []
  | .style decl => .node decl.span []
  | .layout decl => .node decl.span []

mutual

def Item.spanTree : Item → SpanTree
  | .package _ body span => .node span (Item.spanTrees body)
  | .declaration decl => decl.spanTree

def Item.spanTrees : List Item → List SpanTree
  | [] => []
  | item :: rest => item.spanTree :: Item.spanTrees rest

end

def DiagramDecl.spanTree (decl : DiagramDecl) : SpanTree :=
  .node decl.span (Item.spanTrees decl.body)

def Syntax.TopLevel.spanTrees : Syntax.TopLevel → List SpanTree
  | .imported decl => [.node decl.span []]
  | .diagram decl => [decl.spanTree]
  | .stray => []

theorem TypeExpr.spanTrees_eq (types : List TypeExpr) :
    TypeExpr.spanTrees types = types.map (·.spanTree) := by
  induction types with
  | nil => rfl
  | cons type rest ih => rw [TypeExpr.spanTrees, ih, List.map_cons]

theorem Item.spanTrees_eq (items : List Item) : Item.spanTrees items = items.map (·.spanTree) := by
  induction items with
  | nil => rfl
  | cons item rest ih => rw [Item.spanTrees, ih, List.map_cons]

namespace Syntax

namespace Grammar

section Rows

variable {source : List Char} {xs ys : List Token} {as bs : List SpanTree}

/-- Tokens that stand where the characters before them put them. -/
structure Standing (source : List Char) (tokens : List Token) : Prop where
  orderly : Orderly tokens
  located : ∀ token ∈ tokens, token.stop ≤ source.length ∧
    token.position = Position.start.after (source.take token.position.offset)

theorem Standing.sublist (standing : Standing source ys) (part : xs.Sublist ys) :
    Standing source xs where
  orderly := standing.orderly.sublist part
  located token member := standing.located token (part.subset member)

theorem Standing.left (standing : Standing source (xs ++ ys)) : Standing source xs :=
  standing.sublist (List.sublist_append_left xs ys)

theorem Standing.right (standing : Standing source (xs ++ ys)) : Standing source ys :=
  standing.sublist (List.sublist_append_right xs ys)

/-- Trees one behind the other, each of which begins and ends with one of the tokens. -/
structure Row (source : List Char) (tokens : List Token) (trees : List SpanTree) : Prop where
  placed : ∀ tree ∈ trees, tree.WellPlaced source
  within : ∀ tree ∈ trees, ∃ first ∈ tokens, ∃ last ∈ tokens,
    tree.span = ⟨first.position, last.stop⟩
  apart : trees.Pairwise SpanTree.Before

theorem Row.nil (tokens : List Token) : Row source tokens [] := ⟨by simp, by simp, .nil⟩

theorem Row.mono (row : Row source xs as) (part : xs ⊆ ys) : Row source ys as where
  placed := row.placed
  within tree member := by
    obtain ⟨first, front, last, final, span⟩ := row.within tree member
    exact ⟨first, part front, last, part final, span⟩
  apart := row.apart

theorem Row.append (standing : Standing source (xs ++ ys)) (left : Row source xs as)
    (right : Row source ys bs) : Row source (xs ++ ys) (as ++ bs) where
  placed := List.forall_mem_append.2 ⟨left.placed, right.placed⟩
  within := List.forall_mem_append.2
    ⟨(left.mono (List.subset_append_left xs ys)).within,
      (right.mono (List.subset_append_right xs ys)).within⟩
  apart := by
    refine List.pairwise_append.2 ⟨left.apart, right.apart, fun tree here next there => ?_⟩
    obtain ⟨_, _, last, final, span⟩ := left.within tree here
    obtain ⟨first, front, _, _, behind⟩ := right.within next there
    rw [SpanTree.Before, span, behind]
    exact (List.pairwise_append.1 standing.orderly.apart).2.2 last final first front

theorem Orderly.head_le {first token : Token} (orderly : Orderly xs) (front : xs.head? = some first)
    (member : token ∈ xs) : first.position.offset ≤ token.position.offset := by
  cases xs with
  | nil => simp at front
  | cons other rest =>
    obtain rfl : other = first := by simpa using front
    rcases List.mem_cons.1 member with rfl | later
    · exact Nat.le_refl _
    · have behind := (List.pairwise_cons.1 orderly.apart).1 token later
      have forward := orderly.forward other List.mem_cons_self
      omega

theorem Orderly.le_getLast {last token : Token} (orderly : Orderly xs)
    (final : xs.getLast? = some last) (member : token ∈ xs) : token.stop ≤ last.stop := by
  obtain ⟨before, rfl⟩ := List.getLast?_eq_some_iff.1 final
  rcases List.mem_append.1 member with earlier | same
  · have behind := (List.pairwise_append.1 orderly.apart).2.2 token earlier last (by simp)
    have forward := orderly.forward last (by simp)
    omega
  · rw [List.mem_singleton.1 same]

theorem Standing.located_span {span : Span} (standing : Standing source xs) (spans : Spans xs span) :
    span.Located source := by
  obtain @⟨_, first, last, front, final⟩ := spans
  have there := (standing.located first (List.mem_of_head? front)).2
  refine ⟨standing.orderly.start_lt_stop front final,
    (standing.located last (List.mem_of_getLast? final)).1, ?_, ?_⟩
  · have line := congrArg Position.line there
    rw [Position.line_after] at line
    exact line.trans (Nat.add_comm _ _)
  · have column := congrArg Position.column there
    rwa [Position.column_after_start] at column

theorem Row.node {span : Span} (standing : Standing source xs) (spans : Spans xs span)
    (row : Row source xs as) : Row source xs [.node span as] where
  placed := by
    refine List.forall_mem_singleton.2
      (.node (standing.located_span spans) row.placed (fun tree member => ?_) row.apart)
    obtain ⟨first, front, last, final, own⟩ := row.within tree member
    obtain ⟨head, ending⟩ := spans
    rw [SpanTree.Inside, own]
    exact ⟨standing.orderly.head_le head front, standing.orderly.le_getLast ending final⟩
  within := by
    obtain ⟨head, ending⟩ := spans
    exact List.forall_mem_singleton.2
      ⟨_, List.mem_of_head? head, _, List.mem_of_getLast? ending, rfl⟩
  apart := List.pairwise_singleton _ _

theorem Row.leaf {span : Span} (standing : Standing source xs) (spans : Spans xs span) :
    Row source xs [.node span []] := .node standing spans (.nil xs)

end Rows

/-- What a rule derives from tokens of a source stands in a row. -/
def Rows {α : Type} (source : List Char) (rule : Rule α) (trees : α → List SpanTree) : Prop :=
  ∀ ⦃xs : List Token⦄ ⦃a : α⦄, rule xs a → Standing source xs → Row source xs (trees a)

section Shapes

variable {source : List Char} {α : Type} {rule : Rule α} {tree : α → SpanTree}
  {trees : α → List SpanTree}

theorem Rows.part {xs ys : List Token} {a : α} (each : Rows source rule trees) (derived : rule xs a)
    (standing : Standing source ys) (part : xs.Sublist ys) : Row source ys (trees a) :=
  (each derived (standing.sublist part)).mono part.subset

theorem Rows.star (each : Rows source rule trees) :
    Rows source (Star rule) (·.flatMap trees) := by
  intro xs as derived standing
  induction derived with
  | nil => exact .nil []
  | cons first _ ih => exact .append standing (each first standing.left) (ih standing.right)

theorem Rows.star_nodes (each : Rows source rule fun a => [tree a]) :
    Rows source (Star rule) (·.map tree) := by
  intro xs as derived standing
  change Row source xs (as.map tree)
  rw [List.map_eq_flatMap]
  exact each.star derived standing

theorem Rows.maybe (each : Rows source rule fun a => [tree a]) :
    Rows source (Maybe rule) (·.toList.map tree) := by
  intro xs found derived standing
  cases derived with
  | absent => exact .nil []
  | present inner => exact each inner standing

theorem Rows.maybeSome {rule : Rule (List α)} (each : Rows source rule (·.map tree)) :
    Rows source (MaybeSome rule) (·.map tree) := by
  intro xs found derived standing
  cases derived with
  | absent => exact .nil []
  | present inner => exact each inner standing

theorem Rows.behind {kind : TokenKind} (each : Rows source rule trees) :
    Rows source (Behind kind rule) trees := by
  intro xs a derived standing
  obtain ⟨-, inner⟩ := derived
  exact each.part inner standing (List.sublist_cons_self _ _)

theorem Rows.between {opening closing : TokenKind} (each : Rows source rule trees) :
    Rows source (Between opening closing rule) trees := by
  intro xs a derived standing
  obtain @⟨first, last, xs, _, -, inner, -⟩ := derived
  exact each.part inner standing
    ((List.sublist_append_left xs [last]).trans (List.sublist_cons_self first _))

theorem Rows.commaList (each : Rows source rule fun a => [tree a]) :
    Rows source (CommaList rule) (·.map tree) := by
  intro xs as derived standing
  obtain ⟨first, rest⟩ := derived
  exact .append standing (each first standing.left) (each.behind.star_nodes rest standing.right)

end Shapes

section Rules

variable {source : List Char}

theorem rows_typeBase {arguments : Rule (List TypeExpr)}
    (each : Rows source arguments (·.map (·.spanTree))) :
    Rows source (TypeBase arguments) fun type => [type.spanTree] := by
  intro xs type derived standing
  cases derived with
  | simple _ spans => exact .leaf standing spans
  | generic _ args spans =>
    have row := each.between.part args standing (List.sublist_cons_self _ _)
    rw [← TypeExpr.spanTrees_eq] at row
    exact .node standing spans row

theorem rows_typeWith {arguments : Rule (List TypeExpr)}
    (each : Rows source arguments (·.map (·.spanTree))) :
    Rows source (TypeWith arguments) fun type => [type.spanTree] := by
  intro xs type derived standing
  cases derived with
  | plain base => exact rows_typeBase each base standing
  | nullable base _ spans =>
    exact .node standing spans
      ((rows_typeBase each).part base standing (List.sublist_append_left _ _))

theorem rows_typeIn (levels : Nat) :
    Rows source (TypeIn levels) fun type => [type.spanTree] := by
  induction levels with
  | zero => exact rows_typeWith fun _ _ none_ => none_.elim
  | succ levels ih => exact rows_typeWith ih.commaList

theorem rows_literal : Rows source LiteralOf fun literal => [literal.spanTree] := by
  intro xs literal derived standing
  cases derived with
  | text _ spans => exact .leaf standing spans
  | number _ _ spans => exact .leaf standing spans
  | yes _ _ spans => exact .leaf standing spans
  | no _ _ spans => exact .leaf standing spans

theorem rows_param (levels : Nat) :
    Rows source (Param levels) fun decl => [decl.spanTree] := by
  intro xs decl derived standing
  obtain ⟨-, -, type, spans⟩ := derived
  exact .node standing spans ((rows_typeIn levels).part type standing
    ((List.sublist_cons_self _ _).trans (List.sublist_cons_self _ _)))

theorem rows_field (levels : Nat) :
    Rows source (Field levels) fun decl => [decl.spanTree] := by
  intro tokens decl derived standing
  obtain @⟨vis, mods, name, colon, xs, assigned, semicolon, _, _, _, type, value, span,
    -, -, -, -, typed, given, -, whole, spans⟩ := derived
  -- Only the type and the default value are nodes; the other tokens do not matter to the row.
  have part : (xs ++ assigned).Sublist tokens := by
    have inner : (xs ++ assigned).Sublist (name :: colon :: (xs ++ (assigned ++ semicolon))) := by
      rw [← List.append_assoc]
      exact ((List.sublist_append_left _ semicolon).cons colon).cons name
    rw [whole]
    exact (inner.trans (List.sublist_append_right mods _)).trans (List.sublist_append_right vis _)
  have inner := standing.sublist part
  have row := Row.append inner (rows_typeIn levels typed inner.left)
    (rows_literal.behind.maybe given inner.right)
  exact .node standing spans (row.mono part.subset)

theorem rows_method (levels : Nat) :
    Rows source (Method levels) fun decl => [decl.spanTree] := by
  intro tokens decl derived standing
  obtain @⟨vis, mods, name, list, colon, xs, semicolon, _, _, _, params, type, span,
    -, -, -, given, -, typed, -, whole, spans⟩ := derived
  -- The parameters stand before the type that they lead to.
  have part : (list ++ xs).Sublist tokens := by
    have inner : (list ++ xs).Sublist (name :: (list ++ colon :: (xs ++ semicolon))) :=
      ((List.Sublist.refl list).append ((List.sublist_append_left xs semicolon).cons colon)).cons name
    rw [whole]
    exact (inner.trans (List.sublist_append_right mods _)).trans (List.sublist_append_right vis _)
  have inner := standing.sublist part
  have row := Row.append inner ((rows_param levels).commaList.maybeSome.between given inner.left)
    (rows_typeIn levels typed inner.right)
  exact .node standing spans (row.mono part.subset)

theorem rows_memberOf (levels : Nat) (kind : EntityKind) :
    Rows source (MemberOf levels kind) fun member => [member.spanTree] := by
  intro tokens member derived standing
  cases derived with
  | field inner => exact rows_field levels inner standing
  | method inner => exact rows_method levels inner standing
  | value _ _ spans => exact .leaf standing spans

theorem rows_members (greedy : Bool) (levels : Nat) (kind : EntityKind) :
    Rows source (Members greedy levels kind) (·.map (·.spanTree)) := by
  intro tokens members derived standing
  induction derived with
  | nil => exact .nil []
  | separator _ _ ih =>
    -- A separator is no node.
    exact (ih (standing.sublist (List.sublist_cons_self _ _))).mono (List.subset_cons_self _ _)
  | member first _ _ ih =>
    exact .append standing (rows_memberOf levels kind first standing.left) (ih standing.right)

theorem rows_entity (greedy : Bool) (levels : Nat) :
    Rows source (Entity greedy levels) fun decl => [decl.spanTree] := by
  intro tokens decl derived standing
  obtain @⟨mods, word, name, stereo, extended, implemented, body, _, _, _, _, _, _, _, _,
    -, -, -, -, -, -, held, whole, spans⟩ := derived
  have part : body.Sublist tokens := by
    have inner : body.Sublist (stereo ++ (extended ++ (implemented ++ body))) :=
      ((List.sublist_append_right implemented body).trans (List.sublist_append_right extended _)).trans
        (List.sublist_append_right stereo _)
    rw [whole]
    exact ((inner.cons name).cons word).trans (List.sublist_append_right mods _)
  exact .node standing spans
    ((rows_members greedy levels _).between.maybeSome.part held standing part)

theorem rows_declaration (greedy : Bool) (levels : Nat) :
    Rows source (DeclarationOf greedy levels) fun decl => [decl.spanTree] := by
  intro tokens decl derived standing
  cases derived with
  | entity inner => exact rows_entity greedy levels inner standing
  | relation inner =>
    obtain ⟨-, -, -, -, -, -, -, spans⟩ := inner
    exact .leaf standing spans
  | note inner =>
    obtain ⟨-, -, -, spans⟩ := inner
    exact .leaf standing spans
  | style inner =>
    obtain ⟨-, -, -, -, spans⟩ := inner
    exact .leaf standing spans
  | layout inner =>
    obtain ⟨-, -, -, -, -, -, -, -, -, -, spans⟩ := inner
    exact .leaf standing spans

theorem rows_itemWith {greedy : Bool} {levels : Nat} {body : Rule (List Item)}
    (each : Rows source body (·.map (·.spanTree))) :
    Rows source (ItemWith greedy levels body) fun item => [item.spanTree] := by
  intro tokens item derived standing
  cases derived with
  | package _ _ held spans =>
    have row := each.between.part held standing
      ((List.sublist_cons_self _ _).trans (List.sublist_cons_self _ _))
    rw [← Item.spanTrees_eq] at row
    exact .node standing spans row
  | declaration inner => exact rows_declaration greedy levels inner standing

theorem rows_itemsIn (greedy : Bool) (levels : Nat) :
    Rows source (ItemsIn greedy levels) (·.map (·.spanTree)) := by
  induction levels with
  | zero => exact (rows_itemWith fun _ _ none_ => none_.elim).star_nodes
  | succ levels ih => exact (rows_itemWith ih).star_nodes

theorem rows_part (greedy : Bool) (levels : Nat) :
    Rows source (Part greedy levels) (·.spanTrees) := by
  intro tokens part derived standing
  cases derived with
  | imported inner =>
    obtain ⟨-, -, -, spans⟩ := inner
    exact .leaf standing spans
  | diagram inner =>
    obtain @⟨word, name, colon, shown, block, _, _, _, -, -, -, -, -, held, spans⟩ := inner
    have part : block.Sublist (word :: name :: colon :: shown :: block) :=
      ((((List.Sublist.refl block).cons shown).cons colon).cons name).cons word
    have row := (rows_itemsIn greedy levels).between.part held standing part
    rw [← Item.spanTrees_eq] at row
    exact .node standing spans row

end Rules

end Grammar

open Grammar

theorem standing_tokens (source : String) :
    Standing source.toList (Lexer.lex source).tokens.dropLast where
  orderly := Lexer.orderly_tokens source
  located _ member := Lexer.position_of_mem_tokens member

/-- Where nothing is reported, every node has the span from the start of its first token to the end
of its last one, as its derivation says. Nodes lie inside the node above them and one behind the
other, with the lines and columns of their starts. -/
theorem spans_exact {source : String} {program : Program}
    (quiet : parse source = .ok ⟨program, []⟩) :
    (Lexer.lex source).errors = [] ∧ ∃ first parts,
      (Lexer.lex source).tokens.head? = some first ∧
      Parts true nestingLimit (Lexer.lex source).tokens.dropLast parts ∧
      program = ⟨importsOf parts, diagramsOf parts, ⟨first.position, source.toList.length⟩⟩ ∧
      (∀ tree ∈ parts.flatMap (·.spanTrees),
        tree.WellPlaced source.toList ∧ tree.Inside program.span) ∧
      (parts.flatMap (·.spanTrees)).Pairwise SpanTree.Before := by
  cases run : parseTokens (Lexer.lex source).tokens with
  | error fault =>
    rw [parse, run] at quiet
    cases quiet
  | ok found =>
    obtain ⟨tree, errors⟩ := found
    rw [parse, run] at quiet
    obtain ⟨rfl, clean⟩ := Parsed.mk.inj (Except.ok.inj quiet)
    obtain ⟨lexed, rfl⟩ := List.append_eq_nil_iff.1 clean
    -- The greedy grammar is the one that gives a field or method the semicolon behind it.
    obtain ⟨parts, derived, rfl⟩ := derivation_of_quiet true run
    have standing := standing_tokens source
    have row := (rows_part true nestingLimit).star derived standing
    refine ⟨lexed, _, parts, head?_tokens source, derived, rfl, fun tree member => ?_, row.apart⟩
    obtain ⟨first, front, last, final, span⟩ := row.within tree member
    have head : (Lexer.lex source).tokens.dropLast.head? =
        some (Cursor.ofTokens (Lexer.lex source).tokens).current := by
      rw [Cursor.current, Lexer.rest_ofTokens]
      cases rest : (Lexer.lex source).tokens.dropLast with
      | nil => simp [rest] at front
      | cons token more => rfl
    refine ⟨row.placed tree member, ?_⟩
    rw [SpanTree.Inside, span]
    exact ⟨standing.orderly.head_le head front, (standing.located last final).1⟩

/-- A field with its type and its semicolon, on the second line of a source. -/
theorem spans_exact_lines : ∃ program parts,
    parse "diagram d : class\n{ class A { a : B<int>?; } }" = .ok ⟨program, []⟩ ∧
    program.diagrams.map (·.span) = [⟨⟨0, 1, 1⟩, 46⟩] ∧
    Parts true nestingLimit
      (Lexer.lex "diagram d : class\n{ class A { a : B<int>?; } }").tokens.dropLast parts ∧
    (parts.flatMap (·.spanTrees)).Pairwise SpanTree.Before := by
  have known : ((parse "diagram d : class\n{ class A { a : B<int>?; } }").toOption.map fun parsed =>
      (parsed.errors, parsed.program.diagrams.map (·.span))) = some ([], [⟨⟨0, 1, 1⟩, 46⟩]) := by
    decide +kernel
  cases run : parse "diagram d : class\n{ class A { a : B<int>?; } }" with
  | error fault => simp [run, Except.toOption] at known
  | ok parsed =>
    obtain ⟨program, errors⟩ := parsed
    simp only [run, Except.toOption, Option.map_some, Option.some.injEq, Prod.mk.injEq] at known
    obtain ⟨rfl, spans⟩ := known
    obtain ⟨-, _, parts, -, derived, -, -, apart⟩ := spans_exact run
    exact ⟨program, parts, rfl, spans, derived, apart⟩

end Syntax

end ArchDiagram
