import ArchDiagram.Proofs.Lexemes
import ArchDiagram.Proofs.Grammar

/-!
What the tokens of a source are like. Every piece stands at the place that counting the characters
before it gives, tokens stand one behind the other, and the text of a token fits its kind.
-/

namespace ArchDiagram

namespace Position

theorem after_append (position : Position) (xs ys : List Char) :
    position.after (xs ++ ys) = (position.after xs).after ys := List.foldl_append

theorem offset_after (position : Position) (text : List Char) :
    (position.after text).offset = position.offset + text.length := by
  induction text generalizing position with
  | nil => rfl
  | cons c text ih =>
    have step : (position.next c).offset = position.offset + 1 := by
      unfold next
      split <;> rfl
    change ((position.next c).after text).offset = _
    rw [ih, step, List.length_cons]
    omega

theorem line_after (position : Position) (text : List Char) :
    (position.after text).line = position.line + text.count '\n' := by
  induction text generalizing position with
  | nil => rfl
  | cons c text ih =>
    change ((position.next c).after text).line = _
    rw [ih, List.count_cons]
    unfold next
    by_cases feed : c = '\n'
    · simp [feed]
      omega
    · simp [feed]

theorem column_after_start (text : List Char) :
    (start.after text).column = (text.reverse.takeWhile (· ≠ '\n')).length + 1 := by
  induction text using List.reverseRecOn with
  | nil => rfl
  | append_singleton text c ih =>
    rw [after_append, List.reverse_concat, List.takeWhile_cons]
    change ((start.after text).next c).column = _
    unfold next
    by_cases feed : c = '\n'
    · simp [feed]
    · simp [feed, ih]

end Position

namespace Lexer

open Syntax (Numeric)

/-- What the grammar needs to know of the text of a word, by its kind. -/
inductive Spelled : TokenKind → List Char → Prop
  | number {text : List Char} : Numeric text → Spelled .number text
  | name {kind : TokenKind} {text : List Char} : kind.isName = true → text ≠ [] →
      Spelled kind text
  | operator (operator : RelationOperator) : Spelled (.relation operator) operator.symbol.toList
  | symbol {kind : TokenKind} {text : List Char} :
      kind = .stereotypeOpen ∨ kind = .dots ∨ kind = .color ∨ (∃ mark, kind = .mark mark) →
      Spelled kind text

theorem Word.spelled {kind : TokenKind} {text : List Char} (word : Word kind text) :
    Spelled kind text := by
  have some_ := word.ne_nil
  cases word with
  | fixed fixed =>
    cases kind with
    | keyword => exact .name rfl some_
    | relation operator =>
      rw [← Option.some.inj fixed]
      exact .operator operator
    | stereotypeOpen | dots | mark => exact .symbol (by simp)
    | _ => simp [TokenKind.spelling?] at fixed
  | identifier => exact .name rfl some_
  | number numeric => exact .number numeric
  | color => exact .symbol (by simp)

/-- A piece of a source takes up text, and a word is spelled as its kind is. -/
structure WellCut (piece : Piece) : Prop where
  taken : piece.source ≠ []
  spelled : ∀ kind text, piece = .word kind text → Spelled kind text

theorem wellCut_cutPiece (c : Char) (cs : List Char) : WellCut (cutPiece c cs).1 where
  taken := cutPiece_source_ne_nil c cs
  spelled := by
    intro kind text
    fun_cases cutPiece c cs with
    | case5 c rest _ _ _ _ cut found =>
      rintro ⟨⟩
      exact (word_of_cutLexeme? found).spelled
    | _ => simp

theorem wellCut_pieces (cs : List Char) : ∀ piece ∈ pieces cs, WellCut piece := by
  fun_induction pieces cs with
  | case1 => simp
  | case2 c cs ih =>
    intro piece member
    rcases List.mem_cons.mp member with rfl | member
    · exact wellCut_cutPiece c cs
    · exact ih piece member

theorem mem_place {position : Position} {found : List Piece} {placed : Position × Piece}
    (member : placed ∈ place position found) : ∃ before behind, found = before ++ placed.2 :: behind ∧
      placed.1 = position.after (before.flatMap Piece.source) := by
  induction found generalizing position with
  | nil => simp [place] at member
  | cons piece rest ih =>
    rcases List.mem_cons.mp member with rfl | member
    · exact ⟨[], rest, rfl, rfl⟩
    · obtain ⟨before, behind, rfl, there⟩ := ih member
      refine ⟨piece :: before, behind, rfl, ?_⟩
      rw [there, List.flatMap_cons, Position.after_append]

theorem dropLast_tokens (source : String) : (lex source).tokens.dropLast =
    (place .start (pieces source.toList)).filterMap tokenAt? := List.dropLast_concat

theorem mem_tokens {source : String} {token : Token}
    (member : token ∈ (lex source).tokens.dropLast) : ∃ piece before behind,
      pieces source.toList = before ++ piece :: behind ∧ piece.lexeme? = some token.toLexeme ∧
      token.position = Position.start.after (before.flatMap Piece.source) ∧
      token.stop = token.position.offset + piece.source.length := by
  rw [dropLast_tokens] at member
  obtain ⟨placed, inside, shown⟩ := List.mem_filterMap.1 member
  obtain ⟨before, behind, whole, there⟩ := mem_place inside
  obtain ⟨lexeme, words, rfl⟩ := Option.map_eq_some_iff.1 shown
  exact ⟨placed.2, before, behind, whole, words, there, Position.offset_after _ _⟩

section Tokens

variable {source : String} {token : Token} (member : token ∈ (lex source).tokens.dropLast)

include member

/-- A word is spelled as its kind is; all other tokens are strings. -/
theorem kind_of_mem_tokens : token.kind = .string ∨ Spelled token.kind token.text.toList := by
  obtain ⟨piece, before, behind, whole, words, -, -⟩ := mem_tokens member
  have cut := wellCut_pieces source.toList piece (by simp [whole])
  unfold Piece.lexeme? at words
  split at words
  · next kind text =>
    rw [← Option.some.inj words, String.toList_ofList]
    exact .inr (cut.spelled kind text rfl)
  · exact .inl (congrArg Lexeme.kind (Option.some.inj words)).symm
  all_goals simp at words

theorem kind_ne_end_of_mem_tokens : token.kind ≠ .endOfInput := by
  intro ends
  rcases kind_of_mem_tokens member with string | spelled
  · simp [ends] at string
  · generalize token.text.toList = text at spelled
    rw [ends] at spelled
    cases spelled with
    | name named => simp [TokenKind.isName] at named
    | symbol kind => simp at kind

theorem text_ne_empty_of_mem_tokens (named : token.kind.isName = true) : token.text ≠ "" := by
  rintro empty
  rcases kind_of_mem_tokens member with string | spelled
  · simp [string, TokenKind.isName] at named
  · generalize same : token.text.toList = text at spelled
    generalize token.kind = kind at spelled named
    cases spelled with
    | number => simp [TokenKind.isName] at named
    | name _ some_ => exact some_ (by rw [← same, empty]; rfl)
    | operator => simp [TokenKind.isName] at named
    | symbol kind =>
      rcases kind with rfl | rfl | rfl | ⟨mark, rfl⟩ <;> simp [TokenKind.isName] at named

theorem forward_of_mem_tokens : token.position.offset < token.stop := by
  obtain ⟨piece, before, behind, whole, -, -, stop⟩ := mem_tokens member
  have cut := wellCut_pieces source.toList piece (by simp [whole])
  have taken := List.length_pos_iff.2 cut.taken
  omega

theorem position_of_mem_tokens : token.stop ≤ source.toList.length ∧
    token.position = Position.start.after (source.toList.take token.position.offset) := by
  obtain ⟨piece, before, behind, whole, -, there, stop⟩ := mem_tokens member
  have parts := source_pieces source.toList
  rw [whole, List.flatMap_append, List.flatMap_cons] at parts
  have offset : token.position.offset = (before.flatMap Piece.source).length := by
    rw [there, Position.offset_after]
    exact Nat.zero_add _
  constructor
  · rw [stop, offset, ← parts]
    simp
  · rw [offset, ← parts, List.take_left', ← there]
    rfl

theorem number_of_mem_tokens (kind : token.kind = .number) :
    Numeric token.text.toList ∧ token.text.toList <:+: source.toList := by
  obtain ⟨piece, before, behind, whole, words, -, -⟩ := mem_tokens member
  have cut := wellCut_pieces source.toList piece (by simp [whole])
  have parts := source_pieces source.toList
  rw [whole, List.flatMap_append, List.flatMap_cons] at parts
  unfold Piece.lexeme? at words
  split at words
  · next own text =>
    have same := Option.some.inj words
    rw [← same] at kind ⊢
    obtain rfl : own = .number := kind
    rw [String.toList_ofList]
    have spelled := cut.spelled .number text rfl
    refine ⟨?_, before.flatMap Piece.source, behind.flatMap Piece.source, ?_⟩
    · cases spelled with
      | number numeric => exact numeric
      | name named => simp [TokenKind.isName] at named
      | symbol other => simp at other
    · rw [← parts, List.append_assoc]
      rfl
  · rw [← Option.some.inj words] at kind
    simp at kind
  all_goals simp at words

theorem operator_of_mem_tokens {operator : RelationOperator}
    (relation : token.kind = .relation operator) : token.text = operator.symbol := by
  rcases kind_of_mem_tokens member with string | spelled
  · simp [relation] at string
  · generalize same : token.text.toList = text at spelled
    rw [relation] at spelled
    cases spelled with
    | name named => simp [TokenKind.isName] at named
    | operator => exact String.toList_injective same
    | symbol other => simp at other

end Tokens

theorem pairwise_tokens (source : String) : (lex source).tokens.dropLast.Pairwise
    fun token next => token.stop ≤ next.position.offset := by
  rw [dropLast_tokens]
  -- The pieces behind a place start at its offset or later.
  have behind {position : Position} {found : List Piece} {token : Token}
      (member : token ∈ (place position found).filterMap tokenAt?) :
      position.offset ≤ token.position.offset := by
    obtain ⟨placed, inside, shown⟩ := List.mem_filterMap.1 member
    obtain ⟨before, -, -, there⟩ := mem_place inside
    obtain ⟨lexeme, -, rfl⟩ := Option.map_eq_some_iff.1 shown
    rw [there, Position.offset_after]
    omega
  generalize Position.start = position
  induction pieces source.toList generalizing position with
  | nil => exact .nil
  | cons piece rest ih =>
    rw [place, List.filterMap_cons]
    cases found : tokenAt? (position, piece) with
    | none => exact ih _
    | some token =>
      refine .cons (fun next member => ?_) (ih _)
      obtain ⟨lexeme, -, rfl⟩ := Option.map_eq_some_iff.1 found
      exact behind member

theorem orderly_tokens (source : String) :
    Syntax.Grammar.Orderly (lex source).tokens.dropLast where
  forward _ member := forward_of_mem_tokens member
  apart := pairwise_tokens source
  named _ member := text_ne_empty_of_mem_tokens member
  numeric _ member kind := (number_of_mem_tokens member kind).1
  operator _ member _ kind := operator_of_mem_tokens member kind

theorem tokens_eq (source : String) :
    (lex source).tokens = (lex source).tokens.dropLast ++ [endToken source.toList] := by
  rw [dropLast_tokens]
  rfl

theorem mem_dropLast_tokens {source : String} {token : Token} (member : token ∈ (lex source).tokens)
    (proper : token.kind ≠ .endOfInput) : token ∈ (lex source).tokens.dropLast := by
  rw [tokens_eq] at member
  rcases List.mem_append.1 member with member | final
  · exact member
  · exact absurd (congrArg (·.kind) (List.mem_singleton.1 final)) proper

theorem rest_ofTokens (source : String) :
    (Syntax.Cursor.ofTokens (lex source).tokens).rest = (lex source).tokens.dropLast := by
  change (lex source).tokens.takeWhile _ = _
  rw [tokens_eq, List.takeWhile_append_of_pos fun token member => by
    simpa using kind_ne_end_of_mem_tokens (by simpa using member)]
  simp [endToken]

theorem final_ofTokens (source : String) :
    (Syntax.Cursor.ofTokens (lex source).tokens).final = endToken source.toList := by
  have none_ : (lex source).tokens.dropLast.find? (·.kind = .endOfInput) = none :=
    List.find?_eq_none.2 fun token member => by simpa using kind_ne_end_of_mem_tokens member
  change ((lex source).tokens.find? (·.kind = .endOfInput)).getD _ = _
  rw [tokens_eq, List.find?_append, none_]
  rfl

end Lexer

end ArchDiagram
