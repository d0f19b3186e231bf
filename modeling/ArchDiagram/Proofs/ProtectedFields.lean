import ArchDiagram.Proofs.Grammar.Colors
import ArchDiagram.Proofs.TypeText
import Mathlib.Data.List.Permutation

/-!
A hash mark directly in front of the name of a field. It makes the field protected, as it does with
a blank behind it, unless the name begins with six digits of a color: these are then read as a color
together with the mark, and no member begins with a color.
-/

namespace ArchDiagram

open Lexer (Reads IsName pieces wordKind isColorDigit isIdentifierPart cutLexeme? cutColor?)
open Syntax (isModifier nestingLimit importsOf diagramsOf)

namespace Lexer

def colorDigits (text : List Char) : Nat := (text.takeWhile isColorDigit).length

theorem colorDigits_append {text rest : List Char} (stop : colorDigits rest = 0) :
    colorDigits (text ++ rest) = colorDigits text := by
  have none_ : rest.takeWhile isColorDigit = [] := List.length_eq_zero_iff.1 stop
  unfold colorDigits
  rw [List.takeWhile_append, none_]
  split
  · rename_i whole
    rw [List.append_nil, whole]
  · rfl

theorem take_six {text : List Char} (many : 6 ≤ colorDigits text) :
    (text.take 6).length = 6 ∧ (text.take 6).all isColorDigit = true := by
  have front : text.take 6 <+: text.takeWhile isColorDigit := by
    apply List.prefix_of_prefix_length_le (List.take_prefix 6 text) (List.takeWhile_prefix _)
    exact Nat.le_trans (List.length_take_le 6 text) many
  constructor
  · have bound := (List.takeWhile_prefix isColorDigit (l := text)).length_le
    exact List.length_take_of_le (Nat.le_trans many bound)
  · rw [List.all_eq_true]
    intro c inside
    exact List.mem_takeWhile_imp (front.subset inside)

theorem colorDigits_of_take {text : List Char} (six : (text.take 6).length = 6)
    (digits : (text.take 6).all isColorDigit = true) : 6 ≤ colorDigits text := by
  have whole : text.takeWhile isColorDigit =
      text.take 6 ++ (text.drop 6).takeWhile isColorDigit := by
    conv_lhs => rw [← List.take_append_drop 6 text]
    exact List.takeWhile_append_of_pos (List.all_eq_true.1 digits)
  rw [colorDigits, whole, List.length_append, six]
  exact Nat.le_add_right 6 _

theorem cutColor?_of_digits {text : List Char} (many : 6 ≤ colorDigits text) :
    cutColor? ('#' :: text) = some ⟨.color, '#' :: text.take 6, text.drop 6⟩ := by
  rw [cutColor?, if_pos (take_six many)]

theorem cutColor?_eq_none {text : List Char} (few : colorDigits text < 6) :
    cutColor? ('#' :: text) = none := by
  rw [cutColor?, if_neg]
  rintro ⟨six, digits⟩
  exact absurd (colorDigits_of_take six digits) (Nat.not_le.2 few)

theorem cutLexeme?_hash (text : List Char) : cutLexeme? ('#' :: text) =
    (cutColor? ('#' :: text)).or (some ⟨.mark .hash, ['#'], text⟩) := rfl

theorem reads_hash {text : List Char} (few : colorDigits text < 6) :
    Reads ['#'] text [markLexeme .hash] [] := by
  apply Reads.word
  rw [List.singleton_append, cutLexeme?_hash, cutColor?_eq_none few]
  rfl

theorem reads_color {text : List Char} (many : 6 ≤ colorDigits text) :
    Reads ('#' :: text.take 6) (text.drop 6) [⟨.color, String.ofList ('#' :: text.take 6)⟩] [] := by
  apply Reads.word
  rw [List.cons_append, List.take_append_drop, cutLexeme?_hash, cutColor?_of_digits many]
  rfl

theorem reads_line {text : String} (quiet : (lex text).errors = []) (rest : List Char) :
    Reads text.toList ('\n' :: rest) ((lex text).tokens.dropLast.map Token.toLexeme) [] := by
  have causes : (pieces text.toList).filterMap Piece.fault? = [] := by
    have none_ := congrArg (List.map SyntaxError.cause) quiet
    simpa only [lex, List.map_filterMap, cause_errorAt?, filterMap_place, List.map_nil] using none_
  have lexemes : (lex text).tokens.dropLast.map Token.toLexeme =
      (pieces text.toList).filterMap Piece.lexeme? := by
    rw [dropLast_tokens, List.map_filterMap]
    simp only [toLexeme_tokenAt?, filterMap_place]
  rw [lexemes]
  exact .of_blank rfl rest (List.filterMap_eq_nil_iff.1 causes) (.inl rfl)

theorem reads_rest (text : List Char) :
    Reads text [] ((pieces text).filterMap Piece.lexeme?)
      ((pieces text).filterMap Piece.fault?) := by
  refine ⟨pieces text, ?_, rfl, rfl⟩
  rw [List.append_nil, pieces, List.append_nil]

end Lexer

namespace Syntax.Grammar

/-- What a rule derives it derives from all tokens with the same lexemes, spans apart. -/
def Placeless (rule : Rule TypeExpr) : Prop :=
  ∀ ⦃xs type⦄, rule xs type → ∀ ⦃ys : List Token⦄,
    ys.map Token.toLexeme = xs.map Token.toLexeme →
      ∃ other, rule ys other ∧ other.mapSpans unspan = type.mapSpans unspan

theorem Placeless.star {rule : Rule TypeExpr} (each : Placeless rule) {xs : List Token}
    {types : List TypeExpr} (derived : Star (Behind (.mark .comma) rule) xs types)
    {ys : List Token} (same : ys.map Token.toLexeme = xs.map Token.toLexeme) :
    ∃ others, Star (Behind (.mark .comma) rule) ys others ∧
      others.map (·.mapSpans unspan) = types.map (·.mapSpans unspan) := by
  induction derived generalizing ys with
  | nil =>
    obtain rfl := List.map_eq_nil_iff.1 same
    exact ⟨[], .nil, rfl⟩
  | cons first _ ih =>
    obtain ⟨comma, first⟩ := first
    rw [List.map_append] at same
    obtain ⟨front, rest, rfl, here, behind⟩ := List.map_eq_append_iff.1 same
    obtain ⟨sign, tokens, rfl, mark, here⟩ := List.map_eq_cons_iff.1 here
    obtain ⟨other, derived, bare⟩ := each first here
    obtain ⟨others, star, bares⟩ := ih behind
    have isComma : sign.kind = .mark .comma := (congrArg Lexeme.kind mark).trans comma
    refine ⟨other :: others, .cons (.mk isComma derived) star, ?_⟩
    rw [List.map_cons, List.map_cons, bare, bares]

theorem Placeless.commaList {rule : Rule TypeExpr} (each : Placeless rule) {xs : List Token}
    {types : List TypeExpr} (derived : CommaList rule xs types) {ys : List Token}
    (same : ys.map Token.toLexeme = xs.map Token.toLexeme) :
    ∃ others, CommaList rule ys others ∧
      others.map (·.mapSpans unspan) = types.map (·.mapSpans unspan) := by
  obtain ⟨first, more⟩ := derived
  rw [List.map_append] at same
  obtain ⟨front, rest, rfl, here, behind⟩ := List.map_eq_append_iff.1 same
  obtain ⟨other, derived, bare⟩ := each first here
  obtain ⟨others, star, bares⟩ := each.star more behind
  refine ⟨other :: others, .mk derived star, ?_⟩
  rw [List.map_cons, List.map_cons, bare, bares]

section Base

variable {arguments : Rule (List TypeExpr)}
  (each : ∀ ⦃xs types⦄, arguments xs types → ∀ ⦃ys : List Token⦄,
    ys.map Token.toLexeme = xs.map Token.toLexeme →
      ∃ others, arguments ys others ∧
        others.map (·.mapSpans unspan) = types.map (·.mapSpans unspan))

include each

theorem placeless_typeBase : Placeless (TypeBase arguments) := by
  intro xs type derived ys same
  cases derived with
  | simple named =>
    obtain ⟨token, rfl, word⟩ := List.map_eq_singleton_iff.1 same
    obtain ⟨span, spans⟩ := exists_spans (List.cons_ne_nil token [])
    have kind := congrArg Lexeme.kind word
    have text := congrArg Lexeme.text word
    refine ⟨_, .simple (by rwa [kind]) spans, ?_⟩
    rw [TypeExpr.mapSpans, TypeExpr.mapSpans, text]
    rfl
  | generic named inside =>
    obtain ⟨opening, inside, closing⟩ := inside
    rw [List.map_cons, List.map_cons, List.map_append] at same
    obtain ⟨token, _, rfl, word, same⟩ := List.map_eq_cons_iff.1 same
    obtain ⟨less, _, rfl, first, same⟩ := List.map_eq_cons_iff.1 same
    obtain ⟨tokens, final, rfl, listed, same⟩ := List.map_eq_append_iff.1 same
    obtain ⟨greater, rfl, last⟩ := List.map_eq_singleton_iff.1 same
    obtain ⟨others, derived, bares⟩ := each inside listed
    obtain ⟨span, spans⟩ := exists_spans (List.cons_ne_nil token (less :: (tokens ++ [greater])))
    have kind := congrArg Lexeme.kind word
    have text := congrArg Lexeme.text word
    have between := Between.mk ((congrArg Lexeme.kind first).trans opening) derived
      ((congrArg Lexeme.kind last).trans closing)
    refine ⟨_, .generic (by rwa [kind]) between spans, ?_⟩
    rw [TypeExpr.mapSpans, TypeExpr.mapSpans, TypeExpr.mapAllSpans_eq, TypeExpr.mapAllSpans_eq,
      bares, text]
    rfl

theorem placeless_typeWith : Placeless (TypeWith arguments) := by
  intro xs type derived ys same
  cases derived with
  | plain base =>
    obtain ⟨other, derived, bare⟩ := placeless_typeBase each base same
    exact ⟨other, .plain derived, bare⟩
  | nullable base question =>
    rw [List.map_append] at same
    obtain ⟨front, final, rfl, here, behind⟩ := List.map_eq_append_iff.1 same
    obtain ⟨mark, rfl, last⟩ := List.map_eq_singleton_iff.1 behind
    obtain ⟨other, derived, bare⟩ := placeless_typeBase each base here
    obtain ⟨span, spans⟩ := exists_spans (List.concat_ne_nil mark front)
    refine ⟨_, .nullable derived ((congrArg Lexeme.kind last).trans question) spans, ?_⟩
    rw [TypeExpr.mapSpans, TypeExpr.mapSpans, bare]
    rfl

end Base

theorem placeless_typeIn (levels : Nat) : Placeless (TypeIn levels) := by
  induction levels with
  | zero => exact placeless_typeWith fun _ _ none_ => none_.elim
  | succ levels ih => exact placeless_typeWith fun _ _ derived _ same => ih.commaList derived same

end Syntax.Grammar

/-- A source that declares one class. Its body ends with the line. -/
def classSource (body : String) : String :=
  "diagram D : class \x7b class A \x7b " ++ body ++ "\n\x7d \x7d"

theorem reads_classFront (rest : List Char) :
    Reads "diagram D : class \x7b class A \x7b".toList (' ' :: rest) classFront [] := by
  have words : (pieces "diagram D : class \x7b class A \x7b".toList).filterMap
      Lexer.Piece.lexeme? = classFront := by cbv
  rw [← words]
  have faultless : (pieces "diagram D : class \x7b class A \x7b".toList).filterMap
      Lexer.Piece.fault? = [] := by cbv
  have plain : (pieces "diagram D : class \x7b class A \x7b".toList).any
      Lexer.Piece.isLineComment = false := by cbv
  exact .of_blank rfl rest (List.filterMap_eq_nil_iff.1 faultless) (.inr fun piece inside =>
    Bool.eq_false_iff.2 (List.any_eq_false.1 plain piece inside))

theorem toList_classSource (body : String) : (classSource body).toList =
    "diagram D : class \x7b class A \x7b".toList ++ ([' '] ++ (body.toList ++
      "\n\x7d \x7d".toList)) := by
  have front : "diagram D : class \x7b class A \x7b ".toList =
      "diagram D : class \x7b class A \x7b".toList ++ [' '] := rfl
  unfold classSource
  rw [String.toList_append, String.toList_append, front]
  simp only [List.append_assoc]

theorem lex_classSource {body : String} {lexemes : List Lexeme} {causes : List SyntaxError.Cause}
    (reads : Reads (body.toList ++ "\n\x7d \x7d".toList) [] lexemes causes) :
    (Lexer.lex (classSource body)).tokens.dropLast.map Token.toLexeme = classFront ++ lexemes ∧
      (Lexer.lex (classSource body)).errors.map SyntaxError.cause = causes := by
  have space (rest : List Char) : Reads [' '] rest [] [] := .piece (Lexer.cutPiece_blank rfl rest)
  have whole := (reads_classFront _).append ((space _).append reads)
  rw [← toList_classSource] at whole
  obtain ⟨words, faults⟩ := whole.lex
  rw [String.ofList_toList] at words faults
  constructor
  · rw [List.map_dropLast, words, List.dropLast_concat, List.nil_append]
  · exact faults

def protectedBody (blank name text : String) : String :=
  "#" ++ blank ++ name ++ ": " ++ text

def protectedSource (blank name text : String) : String :=
  classSource (protectedBody blank name text)

def protectedProgram (name : String) (type : TypeExpr) : Program :=
  classProgram (.field ⟨.hash, [], name, type, none, ⟨.start, 0⟩⟩)

namespace Syntax.Grammar

theorem isMemberName_of_nameLexeme {word : Token} {name : String}
    (same : word.toLexeme = nameLexeme name) (free : ∀ modifier : Modifier, modifier.word ≠ name) :
    IsMemberName word := by
  have kind : word.kind = wordKind name.toList := congrArg Lexeme.kind same
  rw [IsMemberName, kind, wordKind, String.ofList_toList]
  cases found : Keyword.ofWord? name with
  | none => exact ⟨.identifier, by simp⟩
  | some keyword =>
    cases keyword with
    | modifier modifier =>
      have spelled := List.find?_some found
      exact absurd (of_decide_eq_true spelled) (free modifier)
    | _ => exact ⟨.keyword _, by simp⟩

end Syntax.Grammar

section Field

open Syntax Grammar

variable {name text : String} {type : TypeExpr}

theorem reads_nameAndType (isName : IsName name.toList) (quiet : (Lexer.lex text).errors = []) :
    Reads (name.toList ++ ([':', ' '] ++ (text.toList ++ "\n\x7d \x7d".toList))) []
      (nameLexeme name :: markLexeme .colon :: ((Lexer.lex text).tokens.dropLast.map
        Token.toLexeme ++ [markLexeme .rightBrace, markLexeme .rightBrace])) [] := by
  have word (rest : List Char) := Lexer.reads_name isName
    (Lexer.endsName_cons (by decide) (by decide) : Lexer.EndsName (':' :: rest))
  have colon (rest : List Char) : Reads [':'] rest [markLexeme .colon] [] := .word rfl
  have space (rest : List Char) : Reads [' '] rest [] [] := .piece (Lexer.cutPiece_blank rfl rest)
  have closing := Lexer.reads_rest "\n\x7d \x7d".toList
  have marks : (pieces "\n\x7d \x7d".toList).filterMap Lexer.Piece.lexeme? =
      [markLexeme .rightBrace, markLexeme .rightBrace] := by cbv
  have faultless : (pieces "\n\x7d \x7d".toList).filterMap Lexer.Piece.fault? = [] := by
    cbv
  rw [marks, faultless] at closing
  have typed := (Lexer.reads_line quiet "\x7d \x7d".toList).append closing
  exact (word _).append ((colon _).append ((space _).append typed))

theorem parts_protected (free : ∀ modifier : Modifier, modifier.word ≠ name) {found : List Token}
    (derived : TypeIn nestingLimit found type) {tokens : List Token}
    (words : tokens.map Token.toLexeme = classFront ++ markLexeme .hash :: nameLexeme name ::
      markLexeme .colon :: (found.map Token.toLexeme ++
        [markLexeme .rightBrace, markLexeme .rightBrace])) :
    ∃ parts, Parts false nestingLimit tokens parts ∧
      ∀ span, (Program.mk (importsOf parts) (diagramsOf parts) span).bare =
        (protectedProgram name type).bare := by
  obtain ⟨front, _, rfl, front_, rest⟩ := List.map_eq_append_iff.1 words
  obtain ⟨hash, _, rfl, mark, rest⟩ := List.map_eq_cons_iff.1 rest
  obtain ⟨word, _, rfl, word_, rest⟩ := List.map_eq_cons_iff.1 rest
  obtain ⟨colon, _, rfl, colon_, rest⟩ := List.map_eq_cons_iff.1 rest
  obtain ⟨typed, ends, rfl, own, closing⟩ := List.map_eq_append_iff.1 rest
  obtain ⟨other, derived, bare⟩ := placeless_typeIn nestingLimit derived own
  have protects : Visibility [hash] .hash :=
    .present (by rw [show hash.kind = .mark .hash from congrArg Lexeme.kind mark]; exact .hash)
  obtain ⟨_, field⟩ := exists_field protects (isMemberName_of_nameLexeme word_ free)
    (congrArg Lexeme.kind colon_) derived
  obtain ⟨parts, whole, same⟩ := parts_of_member front_ (.field field) closing
  refine ⟨parts, by simpa using whole, fun span => (same span).trans ?_⟩
  have text : word.text = name := congrArg Lexeme.text word_
  simp [protectedProgram, classProgram, Program.bare, Program.mapSpans, DiagramDecl.mapSpans,
    Item.mapAllSpans, Item.mapSpans, Declaration.mapSpans, EntityDecl.mapSpans, Member.mapSpans,
    FieldDecl.mapSpans, unspan, bare, text]

theorem parse_protected (isName : IsName name.toList)
    (free : ∀ modifier : Modifier, modifier.word ≠ name) (quiet : (Lexer.lex text).errors = [])
    (derived : TypeIn nestingLimit (Lexer.lex text).tokens.dropLast type) {blank : String}
    (reads : ∀ rest, Reads ('#' :: blank.toList) (name.toList ++ ([':', ' '] ++ rest))
      [markLexeme .hash] []) :
    ∃ tree, parse (protectedSource blank name text) = .ok ⟨tree, []⟩ ∧
      tree.bare = (protectedProgram name type).bare := by
  have rest := reads_nameAndType isName quiet
  have mark := reads (text.toList ++ "\n\x7d \x7d".toList)
  rw [← List.append_nil (name.toList ++ _)] at mark
  have body := mark.append rest
  have whole : (protectedBody blank name text).toList ++ "\n\x7d \x7d".toList =
      '#' :: blank.toList ++ (name.toList ++ ([':', ' '] ++ (text.toList ++
        "\n\x7d \x7d".toList))) := by
    simp [protectedBody]
  obtain ⟨words, causes⟩ := lex_classSource (whole ▸ body)
  obtain ⟨parts, derived, same⟩ := parts_protected free derived words
  obtain ⟨tree, run, bare⟩ := quiet_of_derivation derived
  refine ⟨tree, ?_, bare.trans (same tree.span)⟩
  rw [protectedSource, parse, run, List.map_eq_nil_iff.1 causes]
  rfl

end Field

theorem colorsSpelled_tokens (source : String) :
    Syntax.Grammar.ColorsSpelled (Lexer.lex source).tokens.dropLast := by
  intro token inside color kind same
  rcases Lexer.printable_of_mem_tokens inside with string | ⟨word, -⟩
  · exact absurd (string.symm.trans color) (by decide)
  · rw [color, same] at word
    have hash : ∀ kind : DiagramKind, kind.word.toList.head? ≠ some '#' := by
      intro kind
      cases kind <;> decide
    generalize letters : kind.word.toList = text at word
    cases word with
    | fixed fixed => simp [TokenKind.spelling?] at fixed
    | color => exact hash kind (by rw [letters]; rfl)

/-- In a source without errors every color is the value of a setting. -/
theorem colorsGiven_of_parse {source : String} {tree : Program}
    (clean : Syntax.parse source = .ok ⟨tree, []⟩) :
    Syntax.Grammar.ColorsGiven (Lexer.lex source).tokens.dropLast := by
  obtain ⟨-, run⟩ := Syntax.quiet_of_parse clean
  obtain ⟨parts, derived, -⟩ := Syntax.derivation_of_quiet false run
  exact Syntax.Grammar.colorsGiven_parts derived (colorsSpelled_tokens source)

/-- A hash mark and six digits of a color at the front of a body are one color, behind which no
class goes on. -/
theorem color_of_digits {name text : String} (many : 6 ≤ Lexer.colorDigits name.toList) :
    (∃ token ∈ (Lexer.lex (protectedSource "" name text)).tokens,
      token.kind = .color ∧ token.text = String.ofList ('#' :: name.toList.take 6)) ∧
    ∀ tree, Syntax.parse (protectedSource "" name text) ≠ .ok ⟨tree, []⟩ := by
  have six : (name.toList.take 6).length = 6 := (Lexer.take_six many).1
  have long : 6 ≤ name.toList.length := by
    rw [List.length_take] at six
    omega
  obtain ⟨behind, split⟩ : ∃ behind, (protectedBody "" name text).toList ++ "\n\x7d \x7d".toList =
      '#' :: (name.toList ++ behind) := ⟨_, by simp [protectedBody]; rfl⟩
  have digits : 6 ≤ Lexer.colorDigits (name.toList ++ behind) := by
    apply Lexer.colorDigits_of_take
    all_goals rw [List.take_append_of_le_length long]
    · exact six
    · exact (Lexer.take_six many).2
  have color := Lexer.reads_color digits
  rw [← List.append_nil (List.drop 6 _)] at color
  have whole := color.append (Lexer.reads_rest ((name.toList ++ behind).drop 6))
  rw [List.cons_append, List.take_append_drop, ← split] at whole
  obtain ⟨words, -⟩ := lex_classSource whole
  rw [List.take_append_of_le_length long] at words
  obtain ⟨front, rest, tokens, front_, words⟩ := List.map_eq_append_iff.1 words
  obtain ⟨token, after, rfl, token_, -⟩ := List.map_eq_cons_iff.1 words
  have kind : token.kind = .color := congrArg Lexeme.kind token_
  constructor
  · have inside : token ∈ (Lexer.lex (protectedSource "" name text)).tokens.dropLast := by
      rw [protectedSource, tokens]
      simp
    exact ⟨token, List.mem_of_mem_dropLast inside, kind, congrArg Lexeme.text token_⟩
  · intro tree clean
    obtain ⟨sign, last, equals⟩ := colorsGiven_of_parse clean front token after tokens kind
    -- The color would have to stand behind an equals sign, but it stands behind a brace.
    have brace : (front.map Token.toLexeme).getLast? = some (markLexeme .leftBrace) := by
      rw [front_]
      rfl
    rw [List.getLast?_map, last] at brace
    have kinds := congrArg (Option.map Lexeme.kind) brace
    simp [equals, markLexeme] at kinds

/-- A hash mark in front of a name and a type declares a protected field of that name and type, and
with a blank behind the mark it does so for every name. Without a blank it does so for every name
that does not begin with six digits of a color. If a name begins with exactly six, these are read as
a color together with the mark, and the body is not parsed without an error. -/
theorem protected_unless_color {name text : String} {type : TypeExpr}
    (isName : IsName name.toList) (free : ∀ modifier : Modifier, modifier.word ≠ name)
    (quiet : (Lexer.lex text).errors = [])
    (derived : Syntax.Grammar.TypeIn nestingLimit (Lexer.lex text).tokens.dropLast type) :
    (∃ tree, Syntax.parse (protectedSource " " name text) = .ok ⟨tree, []⟩ ∧
      tree.bare = (protectedProgram name type).bare) ∧
    (Lexer.colorDigits name.toList < 6 →
      ∃ tree, Syntax.parse (protectedSource "" name text) = .ok ⟨tree, []⟩ ∧
        tree.bare = (protectedProgram name type).bare) ∧
    (Lexer.colorDigits name.toList = 6 →
      (∃ token ∈ (Lexer.lex (protectedSource "" name text)).tokens,
        token.kind = .color ∧ token.text = String.ofList ('#' :: name.toList.take 6)) ∧
      ∀ tree, Syntax.parse (protectedSource "" name text) ≠ .ok ⟨tree, []⟩) := by
  refine ⟨?_, ?_, fun six => color_of_digits six.ge⟩
  · apply parse_protected isName free quiet derived
    intro rest
    have space : Reads [' '] (name.toList ++ ([':', ' '] ++ rest)) [] [] :=
      .piece (Lexer.cutPiece_blank rfl _)
    have mark : Reads ['#'] ([' '] ++ (name.toList ++ ([':', ' '] ++ rest)))
        [markLexeme .hash] [] :=
      Lexer.reads_hash (Nat.zero_lt_succ 5)
    exact mark.append space
  · intro few
    apply parse_protected isName free quiet derived
    intro rest
    apply Lexer.reads_hash
    rw [Lexer.colorDigits_append (by rfl)]
    exact few

/-- A keyword as a name, and a type with a blank and a comment; and a name that spells a color. -/
theorem protected_unless_color_keyword : ∃ type,
    (∃ tree, Syntax.parse (protectedSource "" "package" "map<int, bool?> // ids") = .ok ⟨tree, []⟩ ∧
      tree.bare = (protectedProgram "package" type).bare) ∧
    ∀ tree, Syntax.parse (protectedSource "" "facade" "map<int, bool?> // ids") ≠
      .ok ⟨tree, []⟩ := by
  have builtin (name : String) (named : IsTypeName name) :
      (TypeExpr.simple name ⟨.start, 0⟩).Within IsTypeName (nestingLimit - 1) := .simple named
  have int := builtin "int" ⟨⟨by decide, List.all_eq_true.1 (by decide)⟩, by decide⟩
  have bool := builtin "bool" ⟨⟨by decide, List.all_eq_true.1 (by decide)⟩, by decide⟩
  have map : (TypeExpr.generic "map" [.simple "int" ⟨.start, 0⟩,
      .nullable (.simple "bool" ⟨.start, 0⟩) ⟨.start, 0⟩] ⟨.start, 0⟩).Within IsTypeName
        nestingLimit :=
    .generic ⟨⟨by decide, List.all_eq_true.1 (by decide)⟩, by decide⟩ (by simp)
      (List.forall_mem_cons.2 ⟨int, List.forall_mem_singleton.2 (.nullable bool (by simp))⟩)
  have lexemes : (Lexer.lex "map<int, bool?> // ids").tokens.dropLast.map Token.toLexeme =
      (TypeExpr.generic "map" [.simple "int" ⟨.start, 0⟩,
        .nullable (.simple "bool" ⟨.start, 0⟩) ⟨.start, 0⟩] ⟨.start, 0⟩).lexemes := by
    cbv
  obtain ⟨type, derived, -⟩ := Syntax.Grammar.typeIn_of_lexemes map lexemes
  have quiet : (Lexer.lex "map<int, bool?> // ids").errors = [] := by cbv
  have keyword : IsName "package".toList := ⟨by decide, List.all_eq_true.1 (by decide)⟩
  have word : IsName "facade".toList := ⟨by decide, List.all_eq_true.1 (by decide)⟩
  have free : ∀ modifier : Modifier, modifier.word ≠ "package" := by rintro (_ | _) <;> decide
  have free_ : ∀ modifier : Modifier, modifier.word ≠ "facade" := by rintro (_ | _) <;> decide
  exact ⟨type, (protected_unless_color keyword free quiet derived).2.1 (by decide),
    ((protected_unless_color word free_ quiet derived).2.2 (by decide)).2⟩

/-- A hash mark does not declare a protected field of every name. -/
theorem not_protected_facade : ¬ ∀ (name text : String) (type : TypeExpr),
    IsName name.toList → (∀ modifier : Modifier, modifier.word ≠ name) →
    (Lexer.lex text).errors = [] →
    Syntax.Grammar.TypeIn nestingLimit (Lexer.lex text).tokens.dropLast type →
    ∃ tree, Syntax.parse (protectedSource "" name text) = .ok ⟨tree, []⟩ ∧
      tree.bare = (protectedProgram name type).bare := by
  intro always
  have int : (TypeExpr.simple "int" ⟨.start, 0⟩).Within IsTypeName nestingLimit :=
    .simple ⟨⟨by decide, List.all_eq_true.1 (by decide)⟩, by decide⟩
  have lexemes : (Lexer.lex "int").tokens.dropLast.map Token.toLexeme =
      (TypeExpr.simple "int" ⟨.start, 0⟩).lexemes := by
    cbv
  obtain ⟨type, derived, -⟩ := Syntax.Grammar.typeIn_of_lexemes int lexemes
  have free : ∀ modifier : Modifier, modifier.word ≠ "facade" := by rintro (_ | _) <;> decide
  have word : IsName "facade".toList := ⟨by decide, List.all_eq_true.1 (by decide)⟩
  obtain ⟨tree, clean, -⟩ := always "facade" "int" type word free
    (by cbv) derived
  exact (color_of_digits (by decide)).2 tree clean

end ArchDiagram
