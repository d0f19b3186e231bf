import ArchDiagram.Proofs.MaximalMunch

/-!
Lexing undoes printing. Printed lexemes are kept apart by blanks, comments and characters that begin
nothing. None of these begins with a character that words are made of, so no word runs on into what
stands behind it.
-/

namespace ArchDiagram.Lexer

open SyntaxError (Cause)

/-- A word of its kind, where a reserved word is no identifier, or a string of any content. -/
def Printable (lexeme : Lexeme) : Prop :=
  lexeme.kind = .string ∨ Word lexeme.kind lexeme.text.toList ∧
    (lexeme.kind = .identifier → ∀ keyword : Keyword, keyword.word ≠ lexeme.text)

def escape (content : List Char) : List Char :=
  content.flatMap fun c => if c = '"' ∨ c = '\\' then ['\\', c] else [c]

def print (lexeme : Lexeme) : List Char :=
  if lexeme.kind = .string then '"' :: (escape lexeme.text.toList ++ ['"']) else lexeme.text.toList

/-- A character that begins neither a blank nor a comment nor a lexeme, whatever is behind it. -/
def Stray (c : Char) : Prop := ∀ rest, Unreadable (c :: rest)

/-- A part of what stands between lexemes. A line comment is taken with the end of its line. -/
inductive Trivia
  | blank (c : Char) (blank : isBlank c = true)
  | lineComment (text : List Char) (line : '\n' ∉ text)
  | blockComment (text : List Char) (inner : ¬ ['*', '/'] <:+: text)
  | stray (c : Char) (stray : Stray c)

namespace Trivia

def source : Trivia → List Char
  | blank c _ | stray c _ => [c]
  | lineComment text _ => '/' :: '/' :: (text ++ ['\n'])
  | blockComment text _ => '/' :: '*' :: (text ++ ['*', '/'])

def stray? : Trivia → Option Char
  | stray c _ => some c
  | blank _ _ | lineComment _ _ | blockComment _ _ => none

end Trivia

def printItems (items : List (Lexeme × List Trivia)) : List Char :=
  items.flatMap fun item => print item.1 ++ item.2.flatMap Trivia.source

/-- Lexemes to be printed, with what stands in front of the first one and behind each of them. Two
lexemes are kept apart. -/
structure Printout where
  lead : List Trivia
  items : List (Lexeme × List Trivia)
  printable : ∀ item ∈ items, Printable item.1
  apart : ∀ item ∈ items.dropLast, item.2 ≠ []

namespace Printout

def text (printout : Printout) : List Char :=
  printout.lead.flatMap Trivia.source ++ printItems printout.items

def lexemes (printout : Printout) : List Lexeme := printout.items.map Prod.fst

def strays (printout : Printout) : List Char :=
  (printout.lead ++ printout.items.flatMap Prod.snd).filterMap Trivia.stray?

end Printout

theorem exists_word_of_isWordChar {c : Char} (inner : isWordChar c = true) :
    ∃ kind text, Word kind (c :: text) := by
  simp only [isWordChar, isIdentifierPart, Bool.or_eq_true, decide_eq_true_eq] at inner
  rcases inner with ((start | digit) | rfl) | isMark
  · exact ⟨.identifier, [], .identifier ⟨start, by simp⟩⟩
  · have digits : Syntax.IsDigits [c] := ⟨by simp, by simpa using digit⟩
    exact ⟨.number, [], .number (.mk (.inl rfl) digits (.inl rfl))⟩
  · have member : TokenKind.relation .compositionReversed ∈ operatorKinds := by decide
    exact ⟨_, ['-', '-'], word_of_mem_operatorKinds member⟩
  · obtain ⟨mark, shown⟩ := Option.isSome_iff_exists.1 isMark
    obtain rfl : mark.char = c := by simpa using List.find?_some shown
    have word : Word (.mark mark) (String.singleton mark.char).toList := .fixed rfl
    exact ⟨.mark mark, [], by simpa using word⟩

theorem IsLexeme.front {kind : TokenKind} {c : Char} {text rest : List Char}
    (lexeme : IsLexeme kind (c :: text) rest) : isWordChar c = true ∨ c = '"' := by
  generalize same : c :: text = whole at lexeme
  cases lexeme with
  | word word => exact .inl (word.isWordChar c (by simp [← same]))
  | string | openString => exact .inr (List.cons.inj same).1

theorem Skips.front {c : Char} {text rest : List Char} (skips : Skips (c :: text) rest) :
    isBlank c = true ∨ c = '/' := by
  generalize same : c :: text = whole at skips
  cases skips with
  | blank blank => exact .inl ((List.cons.inj same).1 ▸ blank)
  | _ => exact .inr (List.cons.inj same).1

theorem stray_iff {c : Char} : Stray c ↔
    isWordChar c = false ∧ isBlank c = false ∧ c ≠ '"' ∧ c ≠ '/' := by
  constructor
  · intro stray
    refine ⟨?_, ?_, ?_, ?_⟩
    · rw [← Bool.not_eq_true]
      intro inner
      obtain ⟨kind, text, word⟩ := exists_word_of_isWordChar inner
      exact (stray text).strange (List.append_nil _) (.word word)
    · rw [← Bool.not_eq_true]
      intro blank
      exact (stray []).solid (List.append_nil _) (.blank blank)
    · rintro rfl
      exact (stray []).strange rfl (.openString .nil (.inl rfl))
    · rintro rfl
      have comment : Skips ['/', '/'] [] := .lineComment List.not_mem_nil (.inl rfl)
      exact (stray ['/']).solid (List.append_nil _) comment
  · rintro ⟨inner, blank, quote, slash⟩ rest
    constructor
    · intro text behind whole skips
      obtain ⟨d, text, rfl⟩ := List.exists_cons_of_ne_nil skips.ne_nil
      obtain ⟨rfl, -⟩ := List.cons.inj whole
      rcases skips.front with isBlank_ | rfl
      · simp [blank] at isBlank_
      · exact slash rfl
    · intro kind text behind whole lexeme
      obtain ⟨d, text, rfl⟩ := List.exists_cons_of_ne_nil lexeme.ne_nil
      obtain ⟨rfl, -⟩ := List.cons.inj whole
      rcases lexeme.front with inner_ | rfl
      · simp [inner] at inner_
      · exact quote rfl

theorem isWordChar_head_trivia {trivia : List Trivia} {rest : List Char}
    (apart : trivia ≠ [] ∨ rest = []) :
    ∀ c ∈ (trivia.flatMap Trivia.source ++ rest).head?, isWordChar c = false := by
  cases trivia with
  | nil => simp [apart.resolve_left (by simp)]
  | cons first trivia =>
    cases first with
    | blank c blank => simp [Trivia.source, isWordChar_of_blank blank]
    | lineComment | blockComment => simp [Trivia.source]; decide
    | stray c stray => simp [Trivia.source, (stray_iff.1 stray).1]

/-- A text in front of a rest is read by itself: it is cut into pieces that end where it ends, and
these are the given lexemes and report the given causes. -/
def Reads (text rest : List Char) (lexemes : List Lexeme) (causes : List Cause) : Prop :=
  ∃ found, pieces (text ++ rest) = found ++ pieces rest ∧
    found.filterMap Piece.lexeme? = lexemes ∧ found.filterMap Piece.fault? = causes

theorem Reads.nil (rest : List Char) : Reads [] rest [] [] := ⟨[], rfl, rfl, rfl⟩

theorem Reads.append {text more rest : List Char} {lexemes lexemes' : List Lexeme}
    {causes causes' : List Cause} (first : Reads text (more ++ rest) lexemes causes)
    (second : Reads more rest lexemes' causes') :
    Reads (text ++ more) rest (lexemes ++ lexemes') (causes ++ causes') := by
  obtain ⟨found, cut, rfl, rfl⟩ := first
  obtain ⟨found', cut', rfl, rfl⟩ := second
  refine ⟨found ++ found', ?_, List.filterMap_append, List.filterMap_append⟩
  rw [List.append_assoc, cut, cut', List.append_assoc]

theorem Reads.piece {c : Char} {cs rest : List Char} {piece : Piece}
    (cut : cutPiece c cs = (piece, rest)) :
    Reads piece.source rest piece.lexeme?.toList piece.fault?.toList := by
  have whole := cutPiece_append c cs
  rw [cut] at whole
  refine ⟨[piece], ?_, ?_, ?_⟩
  · rw [whole, pieces, cut]
    rfl
  · cases shown : piece.lexeme? <;> simp [shown]
  · cases shown : piece.fault? <;> simp [shown]

theorem Trivia.reads (trivia : Trivia) (rest : List Char) :
    Reads trivia.source rest [] (trivia.stray?.toList.map .unexpectedCharacter) := by
  cases trivia with
  | blank c blank => exact .piece (cutPiece_blank blank rest)
  | lineComment text line =>
    have feed : Reads ['\n'] rest [] [] := .piece (cutPiece_blank rfl rest)
    have comment : Reads ('/' :: '/' :: text) ('\n' :: rest) [] [] :=
      .piece (cutPiece_lineComment line (.inr ⟨rest, rfl⟩))
    exact comment.append feed
  | blockComment text inner => exact .piece (cutPiece_blockComment inner rest)
  | stray c stray => exact .piece (cutPiece_stray (stray rest))

theorem reads_trivia (trivia : List Trivia) (rest : List Char) :
    Reads (trivia.flatMap Trivia.source) rest []
      ((trivia.filterMap Trivia.stray?).map .unexpectedCharacter) := by
  induction trivia with
  | nil => exact .nil rest
  | cons first trivia ih =>
    have both := (first.reads (trivia.flatMap Trivia.source ++ rest)).append ih
    cases shown : first.stray? with
    | none => simpa [shown] using both
    | some c => simpa [shown] using both

theorem inside_escape (content : List Char) : Inside (escape content) content := by
  induction content with
  | nil => exact .nil
  | cons c content ih =>
    unfold escape at ih ⊢
    rw [List.flatMap_cons]
    split_ifs with special
    · have same : escaped c = c := by rcases special with rfl | rfl <;> rfl
      have escape := ih.escape (c := c)
      rwa [same] at escape
    · rw [not_or] at special
      exact ih.plain special.1 special.2

theorem text_of_word_keyword {keyword : Keyword} {text : List Char}
    (word : Word (.keyword keyword) text) : keyword.word.toList = text := by
  cases word with
  | fixed fixed => rw [← Option.some.inj fixed]

theorem cutLexeme?_of_word {kind : TokenKind} {text rest : List Char} (word : Word kind text)
    (free : kind = .identifier → ∀ keyword : Keyword, keyword.word.toList ≠ text)
    (apart : ∀ c ∈ rest.head?, isWordChar c = false) :
    cutLexeme? (text ++ rest) = some ⟨kind, text, rest⟩ := by
  obtain ⟨⟨own, front, behind⟩, found, length, wins⟩ := word.covers rest
  have whole : front ++ behind = text ++ rest := (splits_of_cutLexeme? found).2
  have own_ : Word own front := word_of_cutLexeme? found
  obtain ⟨more, rfl⟩ : text <+: front :=
    List.prefix_of_prefix_length_le ⟨rest, whole.symm⟩ (List.prefix_append front behind) length
  rw [List.append_assoc] at whole
  obtain rfl := List.append_cancel_left whole
  obtain rfl : more = [] := by
    cases more with
    | nil => rfl
    | cons c more =>
      have inner := own_.isWordChar c (by simp)
      simp [apart c rfl] at inner
  rw [List.append_nil] at own_ found wins
  cases wins rfl with
  | same => exact found
  | keyword keyword => exact absurd (text_of_word_keyword own_) (free rfl keyword)

theorem reads_print {lexeme : Lexeme} (printable : Printable lexeme) {rest : List Char}
    (apart : ∀ c ∈ rest.head?, isWordChar c = false) : Reads (print lexeme) rest [lexeme] [] := by
  obtain ⟨kind, text⟩ := lexeme
  by_cases string : kind = .string
  · subst string
    have piece := Reads.piece (cutPiece_string (inside_escape text.toList) rest)
    simpa [print, Piece.source, Piece.lexeme?, Piece.fault?] using piece
  · obtain ⟨word, free⟩ := printable.resolve_left string
    have own (named : kind = .identifier) (keyword : Keyword) :
        keyword.word.toList ≠ text.toList :=
      fun same => free named keyword (String.toList_injective same)
    obtain ⟨c, cs, whole⟩ : ∃ c cs, text.toList ++ rest = c :: cs :=
      List.exists_cons_of_ne_nil (by simp [word.ne_nil])
    have found := cutLexeme?_of_word word own apart
    rw [whole] at found
    have piece := Reads.piece (cutPiece_word found)
    simpa [print, string, Piece.source, Piece.lexeme?, Piece.fault?] using piece

/-- Printed lexemes are read one by one, if all but the last are followed by something. -/
theorem reads_items {items : List (Lexeme × List Trivia)}
    (printable : ∀ item ∈ items, Printable item.1) (apart : ∀ item ∈ items.dropLast, item.2 ≠ []) :
    Reads (printItems items) [] (items.map Prod.fst)
      (((items.flatMap Prod.snd).filterMap Trivia.stray?).map .unexpectedCharacter) := by
  induction items with
  | nil => exact .nil []
  | cons item items ih =>
    have inner : ∀ other ∈ items.dropLast, other.2 ≠ [] := fun other member => by
      cases items with
      | nil => simp at member
      | cons => exact apart other (.tail _ member)
    have following : item.2 ≠ [] ∨ printItems items ++ [] = [] := by
      cases items with
      | nil => exact .inr rfl
      | cons => exact .inl (apart item List.mem_cons_self)
    have first := reads_print (printable item List.mem_cons_self) (isWordChar_head_trivia following)
    have space := reads_trivia item.2 (printItems items ++ [])
    have rest := ih (fun other member => printable other (.tail _ member)) inner
    rw [← List.append_assoc] at first
    simpa [printItems] using first.append (space.append rest)

theorem filterMap_place {Seen : Type} (view : Piece → Option Seen) (position : Position)
    (found : List Piece) : (place position found).filterMap (fun placed => view placed.2) =
      found.filterMap view := by
  induction found generalizing position with
  | nil => rfl
  | cons piece found ih => rw [place, List.filterMap_cons, List.filterMap_cons, ih]

theorem toLexeme_tokenAt? (placed : Position × Piece) :
    (tokenAt? placed).map Token.toLexeme = placed.2.lexeme? := by
  rw [tokenAt?, Option.map_map]
  exact Option.map_id'

theorem cause_errorAt? (placed : Position × Piece) :
    (errorAt? placed).map SyntaxError.cause = placed.2.fault? := by
  rw [errorAt?, Option.map_map]
  exact Option.map_id'

theorem Reads.lex {text : List Char} {lexemes : List Lexeme} {causes : List Cause}
    (reads : Reads text [] lexemes causes) :
    (Lexer.lex (String.ofList text)).tokens.map Token.toLexeme = lexemes ++ [⟨.endOfInput, ""⟩] ∧
      (Lexer.lex (String.ofList text)).errors.map SyntaxError.cause = causes := by
  obtain ⟨found, cut, rfl, rfl⟩ := reads
  rw [pieces, List.append_nil, List.append_nil] at cut
  constructor
  · simp only [Lexer.lex, List.map_append, List.map_filterMap, toLexeme_tokenAt?, filterMap_place,
      String.toList_ofList, cut]
    rfl
  · simp only [Lexer.lex, List.map_filterMap, cause_errorAt?, filterMap_place,
      String.toList_ofList, cut]

theorem printable_of_mem_tokens {source : String} {token : Token}
    (member : token ∈ (lex source).tokens.dropLast) : Printable token.toLexeme := by
  obtain ⟨piece, before, behind, split, words, -, -⟩ := mem_tokens member
  obtain ⟨c, rest, -, rfl⟩ := drop_eq split
  have shown : (cutPiece c rest).1.kind? = some token.kind := by simp [Piece.kind?, words]
  have munch := munch_cutPiece shown
  generalize cutPiece c rest = first at words munch
  obtain ⟨piece, rest⟩ := first
  dsimp only at words munch
  cases piece with
  | word kind text =>
    rw [← Option.some.inj words] at munch ⊢
    refine or_iff_not_imp_left.2 fun string => ⟨?_, fun named keyword same => ?_⟩
    · dsimp only
      rw [String.toList_ofList]
      cases munch.lexeme with
      | word word => exact word
      | string | openString => exact absurd rfl string
    · have reserved : Word (.keyword keyword) keyword.word.toList := .fixed rfl
      rw [same, String.toList_ofList] at reserved
      have wins := munch.wins (.word reserved)
      rw [show kind = .identifier from named] at wins
      cases wins
  | string => exact .inl (congrArg Lexeme.kind (Option.some.inj words)).symm
  | _ => simp [Piece.lexeme?] at words

theorem reads_printout (printout : Printout) :
    Reads printout.text [] printout.lexemes (printout.strays.map .unexpectedCharacter) := by
  rw [Printout.strays, List.filterMap_append, List.map_append]
  have items := reads_items printout.printable printout.apart
  exact (reads_trivia printout.lead _).append items

/-- The tokens of a source with a blank behind each. -/
def Printout.ofSource (source : String) : Printout where
  lead := []
  items := (lex source).tokens.dropLast.map fun token => (token.toLexeme, [.blank ' ' rfl])
  printable := List.forall_mem_map.2 fun _ member => printable_of_mem_tokens member
  apart item member := by
    obtain ⟨token, -, rfl⟩ := List.mem_map.1 (List.dropLast_subset _ member)
    exact List.cons_ne_nil _ _

theorem lexemes_ofSource (source : String) : (Printout.ofSource source).lexemes ++
    [⟨.endOfInput, ""⟩] = (lex source).tokens.map Token.toLexeme := by
  rw [tokens_eq, List.map_append, Printout.lexemes, Printout.ofSource, List.map_map]
  rfl

theorem strays_ofSource (source : String) : (Printout.ofSource source).strays = [] := by
  rw [Printout.strays, Printout.ofSource, List.nil_append, List.filterMap_eq_nil_iff]
  intro trivia member
  obtain ⟨item, inside, blank⟩ := List.mem_flatMap.1 member
  obtain ⟨token, -, rfl⟩ := List.mem_map.1 inside
  rw [List.mem_singleton.1 blank]
  rfl

/-- Printed lexemes, whatever stands between them, are read as they were, and each stray character
is reported once. What is read from any source can be printed, so every source has a printed form
with the same lexemes and without an error. -/
theorem lex_undoes_print :
    (∀ printout : Printout,
      (lex (String.ofList printout.text)).tokens.map Token.toLexeme =
        printout.lexemes ++ [⟨.endOfInput, ""⟩] ∧
      (lex (String.ofList printout.text)).errors.map SyntaxError.cause =
        printout.strays.map .unexpectedCharacter) ∧
    ∀ source, (∀ token ∈ (lex source).tokens, token.kind ≠ .endOfInput →
        Printable token.toLexeme) ∧
      (lex (String.ofList (Printout.ofSource source).text)).tokens.map Token.toLexeme =
        (lex source).tokens.map Token.toLexeme ∧
      (lex (String.ofList (Printout.ofSource source).text)).errors = [] := by
  constructor
  · intro printout
    exact (reads_printout printout).lex
  · intro source
    obtain ⟨tokens, errors⟩ := (reads_printout (Printout.ofSource source)).lex
    rw [lexemes_ofSource] at tokens
    rw [strays_ofSource] at errors
    refine ⟨fun token member proper => ?_, tokens, List.map_eq_nil_iff.1 errors⟩
    exact printable_of_mem_tokens (mem_dropLast_tokens member proper)

/-- A name and an operator that would be one operator without the comment between them, a character
that begins nothing, and a string that says a quote. -/
theorem lex_undoes_print_apart : ∃ printout : Printout,
    printout.text = "o/**/--$\"\\\"\"".toList ∧
    (lex (String.ofList printout.text)).tokens.map Token.toLexeme =
      [⟨.identifier, "o"⟩, ⟨.relation .association, "--"⟩, ⟨.string, "\""⟩, ⟨.endOfInput, ""⟩] ∧
    (lex (String.ofList printout.text)).errors.map SyntaxError.cause =
      [.unexpectedCharacter '$'] := by
  have name : Printable ⟨.identifier, "o"⟩ := by
    refine .inr ⟨.identifier ⟨by decide, by simp⟩, fun _ keyword same => ?_⟩
    have unknown : wordKind "o".toList = .identifier := by decide
    have known := wordKind_word keyword
    rw [same, unknown] at known
    cases known
  have operator : Printable ⟨.relation .association, "--"⟩ := .inr ⟨.fixed rfl, by simp⟩
  have string : Printable ⟨.string, "\""⟩ := .inl rfl
  have strange : Stray '$' := stray_iff.2 (by decide)
  let printout : Printout :=
    { lead := []
      items := [(⟨.identifier, "o"⟩, [.blockComment [] (by decide)]),
        (⟨.relation .association, "--"⟩, [.stray '$' strange]), (⟨.string, "\""⟩, [])]
      printable := by simp [name, operator, string]
      apart := by simp }
  obtain ⟨tokens, errors⟩ := lex_undoes_print.1 printout
  refine ⟨printout, ?_, tokens, errors⟩
  simp [printout, Printout.text, printItems, print, escape, Trivia.source]

end ArchDiagram.Lexer
