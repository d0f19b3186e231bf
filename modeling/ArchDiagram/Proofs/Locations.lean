import ArchDiagram.Proofs.Placement.Readers
import ArchDiagram.Proofs.DeclarationFaults
import ArchDiagram.Proofs.ResolutionFaults

/-!
The places that are reported. Lines and columns are counted once, by the lexer. The parser takes them
over from tokens into errors and spans, and what is found at a declaration is reported at the span of
a node, so every report stands where a token starts.
-/

namespace ArchDiagram

/-- A place of a source with its line and column, counted from 1: the line by the line feeds before
it, the column by the characters behind the last of them. -/
structure Position.Located (source : List Char) (position : Position) : Prop where
  bounded : position.offset ≤ source.length
  line : position.line = 1 + (source.take position.offset).count '\n'
  column : position.column =
    1 + ((source.take position.offset).reverse.takeWhile (· ≠ '\n')).length

namespace Lexer

theorem located_after {source before : List Char} (front : before <+: source) :
    (Position.start.after before).Located source := by
  have offset := offset_after_start before
  have text : source.take (Position.start.after before).offset = before := by
    rw [offset]
    exact (List.prefix_iff_eq_take.1 front).symm
  refine ⟨?_, ?_, ?_⟩
  · rw [offset]
    exact front.length_le
  · rw [text, Position.line_after]
    rfl
  · rw [text, Position.column_after_start, Nat.add_comm]

theorem located_of_mem_place {source : String} {placed : Position × Piece}
    (member : placed ∈ place .start (pieces source.toList)) : placed.1.Located source.toList := by
  obtain ⟨before, behind, whole, there⟩ := mem_place member
  have text := source_pieces source.toList
  rw [whole, List.flatMap_append] at text
  rw [there]
  exact located_after (text ▸ List.prefix_append _ _)

theorem located_token {source : String} {token : Token} (member : token ∈ (lex source).tokens) :
    token.position.Located source.toList := by
  -- The end of the input is no piece, and stands behind the whole source.
  rcases List.mem_append.1 member with inside | final
  · obtain ⟨placed, here, shown⟩ := List.mem_filterMap.1 inside
    obtain ⟨lexeme, -, rfl⟩ := Option.map_eq_some_iff.1 shown
    exact located_of_mem_place here
  · rw [List.mem_singleton.1 final]
    exact located_after (List.prefix_refl _)

theorem located_error {source : String} {error : SyntaxError}
    (member : error ∈ (lex source).errors) : error.position.Located source.toList := by
  obtain ⟨placed, here, shown⟩ := List.mem_filterMap.1 member
  obtain ⟨cause, -, rfl⟩ := Option.map_eq_some_iff.1 shown
  exact located_of_mem_place here

end Lexer

section Nodes

variable {holds : Span → Prop}

theorem SpanTree.All.span {tree : SpanTree} (all : tree.All holds) : holds tree.span := by
  cases all with
  | node own => exact own

theorem SpanTree.All.inner {span : Span} {trees : List SpanTree}
    (all : (SpanTree.node span trees).All holds) : ∀ tree ∈ trees, tree.All holds := by
  cases all with
  | node _ below => exact below

namespace Analysis

mutual

theorem all_itemOutline (package : Option String) : (item : Item) → item.spanTree.All holds →
    ∀ placed ∈ itemOutline package item, placed.decl.spanTree.All holds
  | .package name body _, all => all_outline (some name) body all.inner
  | .declaration _, all => List.forall_mem_singleton.2 all

theorem all_outline (package : Option String) : (body : List Item) →
    (∀ tree ∈ Item.spanTrees body, tree.All holds) →
    ∀ placed ∈ outline package body, placed.decl.spanTree.All holds
  | [], _ => fun _ absent => nomatch absent
  | item :: rest, all => by
    obtain ⟨first, others⟩ := List.forall_mem_cons.1 all
    exact List.forall_mem_append.2
      ⟨all_itemOutline package item first, all_outline package rest others⟩

end

theorem all_of_declaredAt {body : List Item} (all : ∀ tree ∈ Item.spanTrees body, tree.All holds)
    {path : List Nat} {decl : Declaration} (there : DeclaredAt body path decl) :
    decl.spanTree.All holds := by
  have listed := ((enumerates_declarations body).mem_iff decl).2 ⟨path, there⟩
  obtain ⟨placed, member, rfl⟩ := List.mem_map.1 listed
  exact all_outline none body all placed member

theorem span_of_memberFault {entity : EntityDecl} {number : Nat} {member : Member}
    {part : List Nat} {finding : Finding} (fault : MemberFault entity number member part finding)
    (all : member.spanTree.All holds) : holds finding.span := by
  cases fault with
  | value | field | default | method => exact all.span
  | @param decl param k there _ =>
    have inside : param.spanTree ∈ decl.params.map (·.spanTree) :=
      List.mem_map_of_mem (List.mem_of_getElem? there)
    exact (all.inner _ (List.mem_append_left _ inside)).span

theorem span_of_entityFault {taken : String → Prop} {entity : EntityDecl} {part : List Nat}
    {finding : Finding} (fault : EntityFault taken entity part finding)
    (all : entity.spanTree.All holds) : holds finding.span := by
  cases fault with
  | modifiers | values | name => exact all.span
  | member there fault =>
    exact span_of_memberFault fault
      (all.inner _ (List.mem_map_of_mem (List.mem_of_getElem? there)))

theorem span_of_resolutionFault {diagram : DiagramDecl} {rule : Rule} {place : List Nat ×ₗ Nat}
    {finding : Finding} (fault : ResolutionFault diagram rule place finding)
    (all : ∀ tree ∈ Item.spanTrees diagram.body, tree.All holds) : holds finding.span := by
  cases fault with
  | unknown use _ =>
    cases use with
    | relationEnd there _ => exact (all_of_declaredAt all there).span
    | style there => exact (all_of_declaredAt all there).span
    | layout there => exact (all_of_declaredAt all there).span
    | extends_ first _ => exact (all_of_declaredAt all first.1).span
    | implements_ first _ => exact (all_of_declaredAt all first.1).span
  | circular first _ => exact (all_of_declaredAt all first.1).span
  | kind _ first _ => exact (all_of_declaredAt all first.1).span

theorem span_of_diagramFindings {diagram : DiagramDecl} (all : diagram.spanTree.All holds) :
    ∀ finding ∈ diagramFindings diagram, holds finding.span := by
  intro finding found
  rw [diagramFindings_eq] at found
  rcases List.mem_append.1 found with own | across
  · obtain ⟨place, entity, there, fault⟩ :=
      ((enumerates_declarationFindings diagram.body).mem_iff finding).1 own
    exact span_of_entityFault fault (all_of_declaredAt all.inner there)
  · obtain ⟨rule, resolution, onRule⟩ := List.mem_flatMap.1 across
    obtain ⟨place, fault⟩ := ((enumerates_findingsOn diagram resolution).mem_iff finding).1 onRule
    exact span_of_resolutionFault fault all.inner

end Analysis

end Nodes

namespace Syntax

theorem mem_errors_of_parse {source : String} {parsed : Parsed}
    (ended : parse source = .ok parsed) {error : SyntaxError} (member : error ∈ parsed.errors) :
    error ∈ (Lexer.lex source).errors ∨
      ∃ token ∈ (Lexer.lex source).tokens, error.position = token.position := by
  obtain ⟨last, -, errors, reached⟩ := run_of_parse ended
  rw [errors] at member
  rcases List.mem_append.1 member with lexical | reported
  · exact .inl lexical
  · rcases reached.mem_errors (List.mem_reverse.1 reported) with before | there
    · cases before
    · rw [remaining_ofTokens] at there
      exact .inr there

theorem mem_findings_of_parse {source : String} {parsed : Parsed}
    (ended : parse source = .ok parsed) {finding : Analysis.Finding}
    (member : finding ∈ Analysis.findings parsed.program) :
    ∃ token ∈ (Lexer.lex source).tokens, finding.span.start = token.position := by
  obtain ⟨diagram, drawn, found⟩ := List.mem_flatMap.1 member
  have tree : diagram.spanTree ∈ parsed.program.spanTrees :=
    List.mem_append_right _ (List.mem_map_of_mem drawn)
  exact Analysis.span_of_diagramFindings (laid_of_parse ended _ tree).2 finding found

/-- Every place that is reported is one of the source. Tokens and lexical errors have the line and
the column of the characters before them. The errors of a parse stand at tokens, the end among them,
or are lexical, and everything that the analysis finds has the line and the column of a token. -/
theorem locations_real (source : String) :
    (∀ token ∈ (Lexer.lex source).tokens, token.position.Located source.toList) ∧
    (∀ error ∈ (Lexer.lex source).errors, error.position.Located source.toList) ∧
    ∀ parsed, parse source = .ok parsed →
      (∀ error ∈ parsed.errors, error ∈ (Lexer.lex source).errors ∨
        ∃ token ∈ (Lexer.lex source).tokens, error.position = token.position) ∧
      ∀ finding ∈ Analysis.findings parsed.program, ∃ token ∈ (Lexer.lex source).tokens,
        finding.report.line = some ↑token.position.line ∧
        finding.report.column = some ↑token.position.column := by
  refine ⟨fun _ => Lexer.located_token, fun _ => Lexer.located_error, fun parsed ended =>
    ⟨fun _ => mem_errors_of_parse ended, fun finding member => ?_⟩⟩
  obtain ⟨token, here, there⟩ := mem_findings_of_parse ended member
  rw [Analysis.Finding.report, there]
  exact ⟨token, here, rfl, rfl⟩

/-- A line feed in a comment and one in a string, with something missing or repeated on each line. -/
theorem locations_real_lines : ∃ parsed,
    parse "diagram d : class \x7b /*\n*/ class A \x7b x:int x: \x7d note \"\n\" on B $ A \x7d" =
      .ok parsed ∧
    parsed.errors.map (·.position) = [⟨61, 3, 8⟩, ⟨45, 2, 23⟩, ⟨63, 3, 10⟩] ∧
    (Analysis.findings parsed.program).map (fun finding =>
      (finding.report.line, finding.report.column)) = [(some 2, some 20)] ∧
    ∀ finding ∈ Analysis.findings parsed.program, ∃ token ∈ (Lexer.lex
      "diagram d : class \x7b /*\n*/ class A \x7b x:int x: \x7d note \"\n\" on B $ A \x7d").tokens,
        finding.report.line = some ↑token.position.line ∧
        finding.report.column = some ↑token.position.column := by
  have known : (parse
      "diagram d : class \x7b /*\n*/ class A \x7b x:int x: \x7d note \"\n\" on B $ A \x7d").toOption.map
      (fun parsed => (parsed.errors.map (·.position), (Analysis.findings parsed.program).map
        fun finding => (finding.report.line, finding.report.column))) =
      some ([⟨61, 3, 8⟩, ⟨45, 2, 23⟩, ⟨63, 3, 10⟩], [(some 2, some 20)]) := by decide +kernel
  obtain ⟨parsed, ended, shown⟩ := ok_of_toOption_map known
  obtain ⟨places, lines⟩ := Prod.mk.inj shown
  obtain ⟨-, -, real⟩ := locations_real
    "diagram d : class \x7b /*\n*/ class A \x7b x:int x: \x7d note \"\n\" on B $ A \x7d"
  exact ⟨parsed, ended, places, lines, (real parsed ended).2⟩

end Syntax

end ArchDiagram
