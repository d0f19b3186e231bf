import ArchDiagram.Proofs.Acceptance
import ArchDiagram.Proofs.Joining
import ArchDiagram.Proofs.Layout.Meaning
import ArchDiagram.Proofs.TypeText.Reading

/-!
The text of a type is read back as the type. The grammar derives the type from its lexemes, so a
source that declares a field of the type is accepted, and its tree has the type, spans apart.
-/

namespace ArchDiagram

open Lexer (Reads pieces)
open Syntax (isTypeName nestingLimit importsOf diagramsOf isModifier)

namespace Syntax.Grammar

theorem exists_spans {tokens : List Token} (some_ : tokens ≠ []) : ∃ span, Spans tokens span :=
  ⟨_, .mk (List.head?_eq_some_head some_) (List.getLast?_eq_some_getLast some_)⟩

theorem Star.single {α : Type} {rule : Rule α} {xs : List Token} {a : α} (one : rule xs a) :
    Star rule xs [a] := by
  have star := Star.cons one .nil
  rwa [List.append_nil] at star

theorem commaList_of_lexemes {rule : Rule TypeExpr} {args : List TypeExpr} (some_ : args ≠ [])
    (each : ∀ arg ∈ args, ∀ tokens : List Token, tokens.map Token.toLexeme = arg.lexemes →
      ∃ type, rule tokens type ∧ type.mapSpans unspan = arg.mapSpans unspan)
    {tokens : List Token} (same : tokens.map Token.toLexeme =
      [markLexeme .comma].intercalate (args.map (·.lexemes))) :
    ∃ types, CommaList rule tokens types ∧
      types.map (·.mapSpans unspan) = args.map (·.mapSpans unspan) := by
  -- Induction on the arguments: each but the last has a comma behind it.
  induction args generalizing tokens with
  | nil => exact absurd rfl some_
  | cons first args ih =>
    cases args with
    | nil =>
      obtain ⟨type, derived, bare⟩ := each first List.mem_cons_self tokens (by simpa using same)
      have list := CommaList.mk derived .nil
      rw [List.append_nil] at list
      exact ⟨[type], list, by simp [bare]⟩
    | cons second args =>
      rw [List.map_cons, List.map_cons, List.intercalate_cons_cons, List.append_assoc] at same
      obtain ⟨xs, others, rfl, one, same⟩ := List.map_eq_append_iff.1 same
      obtain ⟨comma, ys, rfl, mark, more⟩ := List.map_eq_cons_iff.1 same
      obtain ⟨type, derived, bare⟩ := each first List.mem_cons_self xs one
      obtain ⟨types, list, bares⟩ := ih (List.cons_ne_nil _ _)
        (fun arg member => each arg (.tail _ member)) more
      obtain ⟨second, star⟩ := list
      have behind := Behind.mk (congrArg Lexeme.kind mark) second
      exact ⟨_, .mk derived (.cons behind star), congrArg₂ List.cons bare bares⟩

theorem TypeIn.nullable {levels : Nat} {xs : List Token} {mark : Token} {type : TypeExpr}
    {span : Span} (derived : TypeIn levels xs type)
    (single : ∀ other span, type ≠ .nullable other span) (kind : mark.kind = .mark .question)
    (spans : Spans (xs ++ [mark]) span) : TypeIn levels (xs ++ [mark]) (.nullable type span) := by
  cases levels <;> cases derived with
  | plain base => exact TypeWith.nullable base kind spans
  | nullable => exact absurd rfl (single _ _)

theorem ne_nullable_of_mapSpans {f : Span → Span} {type other : TypeExpr}
    (same : type.mapSpans f = other.mapSpans f)
    (single : ∀ inner span, other ≠ .nullable inner span) (inner : TypeExpr) (span : Span) :
    type ≠ .nullable inner span := by
  rintro rfl
  cases other with
  | nullable => exact single _ _ rfl
  | _ => simp [TypeExpr.mapSpans] at same

theorem typeIn_of_lexemes {budget : Nat} {type : TypeExpr}
    (within : type.Within IsTypeName budget) {tokens : List Token}
    (same : tokens.map Token.toLexeme = type.lexemes) :
    ∃ found, TypeIn budget tokens found ∧ found.mapSpans unspan = type.mapSpans unspan := by
  -- Induction on the type as its budget allows it, which is the budget of the rule.
  induction within generalizing tokens with
  | @simple budget name span holds =>
    obtain ⟨token, rest, rfl, word, empty⟩ := List.map_eq_cons_iff.1 same
    obtain rfl := List.map_eq_nil_iff.1 empty
    obtain ⟨span, spans⟩ := exists_spans (List.cons_ne_nil token [])
    have named : isTypeName token.kind = true := by
      rw [show token.kind = _ from congrArg Lexeme.kind word]
      exact holds.2
    have text : token.text = name := congrArg Lexeme.text word
    refine ⟨.simple token.text span, ?_, by rw [text]; rfl⟩
    cases budget <;> exact .plain (.simple (isTypeWord_iff.2 named) spans)
  | @generic budget base args span holds some_ _ ih =>
    rw [TypeExpr.lexemes, TypeExpr.allLexemes_eq] at same
    obtain ⟨name, others, rfl, word, same⟩ := List.map_eq_cons_iff.1 same
    obtain ⟨less, others, rfl, opening, same⟩ := List.map_eq_cons_iff.1 same
    obtain ⟨inside, final, rfl, listed, final_⟩ := List.map_eq_append_iff.1 same
    obtain ⟨greater, rfl, closing⟩ := List.map_eq_singleton_iff.1 final_
    obtain ⟨types, list, bares⟩ :=
      commaList_of_lexemes some_ (fun arg member _ => ih arg member) listed
    obtain ⟨span, spans⟩ := exists_spans (List.cons_ne_nil name (less :: (inside ++ [greater])))
    have named : isTypeName name.kind = true := by
      rw [show name.kind = _ from congrArg Lexeme.kind word]
      exact holds.2
    have text : name.text = base := congrArg Lexeme.text word
    have between : Between (.mark .less) (.mark .greater) (CommaList (TypeIn budget)) _ types :=
      .mk (congrArg Lexeme.kind opening) list (congrArg Lexeme.kind closing)
    refine ⟨.generic name.text types span, .plain (.generic (isTypeWord_iff.2 named) between spans), ?_⟩
    rw [TypeExpr.mapSpans, TypeExpr.mapSpans, TypeExpr.mapAllSpans_eq, TypeExpr.mapAllSpans_eq,
      bares, text]
    rfl
  | @nullable budget inner _ _ single ih =>
    obtain ⟨xs, final, rfl, own, final_⟩ := List.map_eq_append_iff.1 same
    obtain ⟨mark, rfl, closing⟩ := List.map_eq_singleton_iff.1 final_
    obtain ⟨found, derived, bare⟩ := ih own
    obtain ⟨span, spans⟩ := exists_spans (List.concat_ne_nil mark xs)
    have question : mark.kind = .mark .question := congrArg Lexeme.kind closing
    refine ⟨_, derived.nullable (ne_nullable_of_mapSpans bare single) question spans, ?_⟩
    rw [TypeExpr.mapSpans, TypeExpr.mapSpans, bare]
    rfl

end Syntax.Grammar

def classProgram (member : Member) : Program :=
  let span : Span := ⟨.start, 0⟩
  let entity : EntityDecl := ⟨[], .classType, "A", none, [], [], [member], span⟩
  ⟨[], [⟨"D", .classes, [.declaration (.entity entity)], span⟩], span⟩

def classFront : List Lexeme :=
  [⟨.keyword .diagram, "diagram"⟩, ⟨.identifier, "D"⟩, markLexeme .colon,
    ⟨.keyword (.entity .classType), "class"⟩, markLexeme .leftBrace,
    ⟨.keyword (.entity .classType), "class"⟩, ⟨.identifier, "A"⟩, markLexeme .leftBrace]

namespace Syntax.Grammar

variable {levels : Nat} {xs : List Token} {kind : EntityKind}

theorem exists_field {signs : List Token} {mark : VisibilityMark} {name colon : Token}
    {type : TypeExpr} (shown : Visibility signs mark) (named : IsMemberName name)
    (between : colon.kind = .mark .colon) (derived : TypeIn levels xs type) :
    ∃ span, Field levels (signs ++ name :: colon :: xs)
      ⟨mark, [], name.text, type, none, span⟩ := by
  obtain ⟨span, spans⟩ := exists_spans
    (List.append_ne_nil_of_right_ne_nil signs (List.cons_ne_nil name (colon :: xs)))
  exact ⟨span, .mk shown .nil named between derived .absent .absent (by simp) spans⟩

theorem exists_entity {word name opening closing : Token} {member : Member}
    (word_ : word.kind = .keyword (.entity kind)) (name_ : name.kind = .identifier)
    (opening_ : opening.kind = .mark .leftBrace) (derived : MemberOf levels kind xs member)
    (closing_ : closing.kind = .mark .rightBrace) :
    ∃ span, Entity false levels (word :: name :: opening :: (xs ++ [closing]))
      ⟨[], kind, name.text, none, [], [], [member], span⟩ := by
  obtain ⟨span, spans⟩ := exists_spans
    (List.cons_ne_nil word (name :: opening :: (xs ++ [closing])))
  have members : Members false levels kind xs [member] := by
    rw [← List.append_nil xs]
    exact .member derived .nil (by simp)
  exact ⟨span, .mk .nil word_ name_ .absent .absent .absent
    (.present (.mk opening_ members closing_)) (by simp) spans⟩

theorem exists_diagram {word name colon shown opening closing : Token} {kind : DiagramKind}
    {decl : Declaration} (word_ : word.kind = .keyword .diagram) (name_ : name.kind = .identifier)
    (colon_ : colon.kind = .mark .colon) (shown_ : shown.kind ≠ .string)
    (text : shown.text = kind.word) (opening_ : opening.kind = .mark .leftBrace)
    (derived : DeclarationOf false levels xs decl) (closing_ : closing.kind = .mark .rightBrace) :
    ∃ span, Diagram false levels (word :: name :: colon :: shown :: opening :: (xs ++ [closing]))
      ⟨name.text, kind, [.declaration decl], span⟩ := by
  obtain ⟨span, spans⟩ := exists_spans
    (List.cons_ne_nil word (name :: colon :: shown :: opening :: (xs ++ [closing])))
  have items : ItemsIn false levels xs [.declaration decl] := by
    cases levels <;> exact .single (.declaration derived)
  exact ⟨span, .mk word_ name_ colon_ shown_ (isDiagramWord_iff.2 text)
    (.mk opening_ items closing_) spans⟩

theorem parts_of_member {front xs ends : List Token} {member : Member}
    (words : front.map Token.toLexeme = classFront)
    (derived : MemberOf nestingLimit .classType xs member)
    (closing : ends.map Token.toLexeme = [markLexeme .rightBrace, markLexeme .rightBrace]) :
    ∃ parts, Parts false nestingLimit (front ++ (xs ++ ends)) parts ∧
      ∀ span, (Program.mk (importsOf parts) (diagramsOf parts) span).bare =
        (classProgram member).bare := by
  -- The tokens around the member have the lexemes of the frame, one by one.
  simp only [classFront, List.map_eq_cons_iff, List.map_eq_nil_iff] at words closing
  obtain ⟨word, _, rfl, word_, name, _, rfl, name_, colon, _, rfl, colon_, shown, _, rfl, shown_,
    opening, _, rfl, opening_, kind, _, rfl, kind_, entity, _, rfl, entity_, brace, _, rfl, brace_,
    rfl⟩ := words
  obtain ⟨inner, _, rfl, inner_, outer, _, rfl, outer_, rfl⟩ := closing
  obtain ⟨_, derived⟩ := exists_entity (congrArg Lexeme.kind kind_) (congrArg Lexeme.kind entity_)
    (congrArg Lexeme.kind brace_) derived (congrArg Lexeme.kind inner_)
  have shownKind : shown.kind = .keyword (.entity .classType) := congrArg Lexeme.kind shown_
  have shownText : shown.text = DiagramKind.classes.word := congrArg Lexeme.text shown_
  obtain ⟨_, derived⟩ := exists_diagram (congrArg Lexeme.kind word_) (congrArg Lexeme.kind name_)
    (congrArg Lexeme.kind colon_) (by simp [shownKind]) shownText (congrArg Lexeme.kind opening_)
    (.entity derived) (congrArg Lexeme.kind outer_)
  have part : Parts false nestingLimit _ _ := Star.single (.diagram derived)
  refine ⟨_, by simpa using part, fun span => ?_⟩
  have nameText : name.text = "D" := congrArg Lexeme.text name_
  have entityText : entity.text = "A" := congrArg Lexeme.text entity_
  simp [importsOf, diagramsOf, classProgram, Program.bare, Program.mapSpans, DiagramDecl.mapSpans,
    Item.mapAllSpans, Item.mapSpans, Declaration.mapSpans, EntityDecl.mapSpans, unspan, nameText,
    entityText]

end Syntax.Grammar

def fieldSource (text : String) : String :=
  "diagram D : class \x7b class A \x7b x: " ++ text ++ " \x7d \x7d"

def fieldProgram (type : TypeExpr) : Program :=
  let span : Span := ⟨.start, 0⟩
  let field : FieldDecl := ⟨.absent, [], "x", type, none, span⟩
  let entity : EntityDecl := ⟨[], .classType, "A", none, [], [], [.field field], span⟩
  ⟨[], [⟨"D", .classes, [.declaration (.entity entity)], span⟩], span⟩

def fieldFront : List Lexeme :=
  [⟨.keyword .diagram, "diagram"⟩, ⟨.identifier, "D"⟩, markLexeme .colon,
    ⟨.keyword (.entity .classType), "class"⟩, markLexeme .leftBrace,
    ⟨.keyword (.entity .classType), "class"⟩, ⟨.identifier, "A"⟩, markLexeme .leftBrace,
    ⟨.identifier, "x"⟩, markLexeme .colon]

theorem reads_fieldFront (rest : List Char) :
    Reads "diagram D : class \x7b class A \x7b x:".toList (' ' :: rest) fieldFront [] := by
  have words :
      (pieces "diagram D : class \x7b class A \x7b x:".toList).filterMap Lexer.Piece.lexeme? =
        fieldFront := by decide +kernel
  rw [← words]
  exact .of_blank rfl rest (by decide +kernel) (.inr (by decide +kernel))

theorem toList_fieldSource (text : String) : (fieldSource text).toList =
    "diagram D : class \x7b class A \x7b x:".toList ++ [' '] ++ text.toList ++
      " \x7d \x7d".toList := by
  have front : "diagram D : class \x7b class A \x7b x:".toList ++ [' '] =
      "diagram D : class \x7b class A \x7b x: ".toList := by decide +kernel
  rw [front]
  exact String.toList_append.trans (congrArg (· ++ " \x7d \x7d".toList) String.toList_append)

theorem reads_fieldSource {type : TypeExpr} (within : type.Within IsTypeName nestingLimit) :
    Reads (fieldSource type.text).toList []
      (fieldFront ++ type.lexemes ++ [markLexeme .rightBrace, markLexeme .rightBrace]) [] := by
  have space (rest : List Char) : Reads [' '] rest [] [] := .piece (Lexer.cutPiece_blank rfl rest)
  have own : Reads type.text.toList " \x7d \x7d".toList type.lexemes [] :=
    Lexer.reads_type within (Lexer.endsName_cons (by decide) (by decide))
  have closing : Reads " \x7d \x7d".toList [] [markLexeme .rightBrace, markLexeme .rightBrace] [] :=
    ⟨pieces " \x7d \x7d".toList, by rw [List.append_nil, pieces, List.append_nil],
      by decide +kernel, by decide +kernel⟩
  have whole := (((reads_fieldFront _).append (space _)).append own).append closing
  simp only [List.append_nil] at whole
  rwa [toList_fieldSource]

theorem lex_fieldSource {type : TypeExpr} (within : type.Within IsTypeName nestingLimit) :
    (Lexer.lex (fieldSource type.text)).errors = [] ∧
    (Lexer.lex (fieldSource type.text)).tokens.dropLast.map Token.toLexeme =
      fieldFront ++ type.lexemes ++ [markLexeme .rightBrace, markLexeme .rightBrace] := by
  obtain ⟨words, causes⟩ := (reads_fieldSource within).lex
  rw [String.ofList_toList] at words causes
  rw [List.map_dropLast, words, List.dropLast_concat]
  exact ⟨List.map_eq_nil_iff.1 causes, rfl⟩

namespace Syntax.Grammar

theorem parts_fieldSource {type : TypeExpr} (within : type.Within IsTypeName nestingLimit) :
    ∃ parts, Parts false nestingLimit (Lexer.lex (fieldSource type.text)).tokens.dropLast parts ∧
      ∀ span, (Program.mk (importsOf parts) (diagramsOf parts) span).bare =
        (fieldProgram type).bare := by
  have words := (lex_fieldSource within).2
  generalize (Lexer.lex (fieldSource type.text)).tokens.dropLast = tokens at words
  obtain ⟨whole, closing, rfl, words, ends⟩ := List.map_eq_append_iff.1 words
  obtain ⟨front, typed, rfl, words, own⟩ := List.map_eq_append_iff.1 words
  obtain ⟨found, derived, bare⟩ := typeIn_of_lexemes within own
  -- The field is all that stands between the frame of the class and its end.
  have frame : front.map Token.toLexeme = classFront ++ [nameLexeme "x", markLexeme .colon] := words
  obtain ⟨front, _, rfl, front_, behind⟩ := List.map_eq_append_iff.1 frame
  obtain ⟨field, _, rfl, field_, behind⟩ := List.map_eq_cons_iff.1 behind
  obtain ⟨mark, rfl, mark_⟩ := List.map_eq_singleton_iff.1 behind
  have named : IsMemberName field := by
    have kind : field.kind = .identifier := congrArg Lexeme.kind field_
    exact ⟨isWord_iff.2 (by rw [kind]; rfl), by simp [kind]⟩
  obtain ⟨_, derived⟩ := exists_field .absent named (congrArg Lexeme.kind mark_) derived
  obtain ⟨parts, part, same⟩ := parts_of_member front_ (.field derived) ends
  refine ⟨parts, by simpa using part, fun span => (same span).trans ?_⟩
  have text : field.text = "x" := congrArg Lexeme.text field_
  simp [fieldProgram, classProgram, Program.bare, Program.mapSpans, DiagramDecl.mapSpans,
    Item.mapAllSpans, Item.mapSpans, Declaration.mapSpans, EntityDecl.mapSpans, Member.mapSpans,
    FieldDecl.mapSpans, unspan, bare, text]

end Syntax.Grammar

namespace Syntax

theorem type_of_fieldProgram {type other : TypeExpr}
    (same : (fieldProgram type).bare = (fieldProgram other).bare) :
    type.mapSpans unspan = other.mapSpans unspan := by
  simpa [fieldProgram, Program.bare, Program.mapSpans, DiagramDecl.mapSpans, Item.mapAllSpans,
    Item.mapSpans, Declaration.mapSpans, EntityDecl.mapSpans, Member.mapSpans,
    FieldDecl.mapSpans] using same

theorem parse_fieldSource {type : TypeExpr} (within : type.Within IsTypeName nestingLimit) :
    ∃ tree, parse (fieldSource type.text) = .ok ⟨tree, []⟩ ∧
      tree.bare = (fieldProgram type).bare := by
  obtain ⟨parts, derived, same⟩ := Grammar.parts_fieldSource within
  obtain ⟨tree, run, bare⟩ := quiet_of_derivation derived
  refine ⟨tree, ?_, bare.trans (same tree.span)⟩
  rw [parse, run, (lex_fieldSource within).1]
  rfl

/-- The text of a type that occurs in a parsed program, however malformed its source, is parsed
without an error as the type of a field, and gives the type back, spans apart. So the texts of two
such types are equal just when they are the same tree up to spans. -/
theorem text_undone_by_parse {source : String} {parsed : Parsed}
    (returned : parse source = .ok parsed) {type : TypeExpr}
    (occurs : type ∈ parsed.program.types) :
    (∃ tree, parse (fieldSource type.text) = .ok ⟨tree, []⟩ ∧
      tree.bare = (fieldProgram type).bare) ∧
    ∀ other result, parse other = .ok result → ∀ type' ∈ result.program.types,
      (type.text = type'.text ↔ type.mapSpans unspan = type'.mapSpans unspan) := by
  have own := parse_fieldSource (within_of_parse returned occurs)
  refine ⟨own, fun other result returned' type' occurs' => ⟨fun same => ?_, fun same => ?_⟩⟩
  · obtain ⟨tree, run, bare⟩ := own
    obtain ⟨tree', run', bare'⟩ := parse_fieldSource (within_of_parse returned' occurs')
    rw [same, run'] at run
    obtain ⟨rfl, -⟩ := Parsed.mk.inj (Except.ok.inj run)
    exact type_of_fieldProgram (bare.symm.trans bare')
  · rw [← type.text_mapSpans unspan, same, type'.text_mapSpans unspan]

/-- The argument that is missing in the source is there in the text. -/
theorem text_undone_by_parse_missing : ∃ parsed,
    parse "diagram d : class \x7b class A \x7b m(p : Map<int, List<>?>" = .ok parsed ∧
    parsed.errors ≠ [] ∧ ∃ type ∈ parsed.program.types, type.text = "Map<int, List<any>?>" ∧
      ∃ tree, parse (fieldSource "Map<int, List<any>?>") = .ok ⟨tree, []⟩ ∧
        tree.bare = (fieldProgram type).bare := by
  have shown : (parse "diagram d : class \x7b class A \x7b m(p : Map<int, List<>?>").toOption.map
      (fun parsed => (parsed.errors.isEmpty, parsed.program.types.map TypeExpr.text)) =
      some (false, ["Map<int, List<any>?>", "int", "List<any>?", "List<any>", "any", "any"]) := by
    decide +kernel
  obtain ⟨parsed, returned, rest⟩ := ok_of_toOption_map shown
  obtain ⟨malformed, texts⟩ := Prod.mk.inj rest
  obtain ⟨type, others, types, text, -⟩ := List.map_eq_cons_iff.1 texts
  have occurs : type ∈ parsed.program.types := types ▸ List.mem_cons_self
  have undone := (text_undone_by_parse returned occurs).1
  rw [text] at undone
  exact ⟨parsed, returned, mt List.isEmpty_iff.2 (ne_true_of_eq_false malformed), type, occurs,
    text, undone⟩

end Syntax

end ArchDiagram
