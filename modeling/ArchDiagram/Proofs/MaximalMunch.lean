import ArchDiagram.Proofs.FirstPiece
import ArchDiagram.Proofs.Lexing

/-!
The scanner reads as much as it can at once. Where it comes to stand is said here by the shapes of
blanks, comments and lexemes alone; these places turn out to be the ends of the pieces of a source.
-/

namespace ArchDiagram.Lexer

/-- The longest lexeme at the front of a text, with the kind that wins among those of its text. -/
structure Munch (kind : TokenKind) (text rest : List Char) : Prop where
  lexeme : IsLexeme kind text rest
  longest : ∀ {other : TokenKind} {front behind : List Char}, IsLexeme other front behind →
    front ++ behind = text ++ rest → front.length ≤ text.length
  wins : ∀ {other : TokenKind}, IsLexeme other text rest → Wins kind other

/-- What the scanner passes at once, in front of the rest of a source. -/
inductive Passes : List Char → List Char → Prop
  | skip {text rest : List Char} : Skips text rest → Passes text rest
  | munch {kind : TokenKind} {text rest : List Char} : Munch kind text rest → Passes text rest
  | stray {c : Char} {rest : List Char} : Unreadable (c :: rest) → Passes [c] rest

/-- The scanner of a source comes to stand at an offset. -/
inductive Stands (cs : List Char) : Nat → Prop
  | start : Stands cs 0
  | pass {p : Nat} {text rest : List Char} : Stands cs p → cs.drop p = text ++ rest →
      Passes text rest → Stands cs (p + text.length)

theorem Passes.ne_nil {text rest : List Char} (passes : Passes text rest) : text ≠ [] := by
  cases passes with
  | skip skips => exact skips.ne_nil
  | munch munch => exact munch.lexeme.ne_nil
  | stray => exact List.cons_ne_nil _ _

theorem munch_cutPiece {c : Char} {cs : List Char} {kind : TokenKind}
    (shown : (cutPiece c cs).1.kind? = some kind) :
    Munch kind (cutPiece c cs).1.source (cutPiece c cs).2 where
  lexeme := isLexeme_cutPiece shown
  longest lexeme whole := by
    obtain ⟨-, -, length, -⟩ := cutPiece_of_isLexeme lexeme (whole.trans (cutPiece_append c cs))
    exact length
  wins lexeme := by
    obtain ⟨own, found, -, wins⟩ := cutPiece_of_isLexeme lexeme (cutPiece_append c cs)
    rw [shown] at found
    rw [Option.some.inj found]
    exact wins rfl

theorem passes_cutPiece (c : Char) (cs : List Char) :
    Passes (cutPiece c cs).1.source (cutPiece c cs).2 := by
  rcases (cutPiece c cs).1.cases_role with skipped | ⟨kind, shown⟩ | ⟨d, stray⟩
  · exact .skip (skips_cutPiece skipped)
  · exact .munch (munch_cutPiece shown)
  · obtain ⟨rfl, unreadable⟩ := unreadable_cutPiece stray
    have whole := cutPiece_append d cs
    rw [stray] at whole ⊢
    rw [← whole] at unreadable
    exact .stray unreadable

theorem source_of_passes {text rest : List Char} (passes : Passes text rest) {c : Char}
    {cs : List Char} (whole : text ++ rest = c :: cs) : (cutPiece c cs).1.source = text := by
  cases passes with
  | skip skips => exact (cutPiece_of_skips skips whole).2
  | munch munch =>
    -- Each of the two is the longest, so they are the same beginning of one text.
    obtain ⟨own, shown, length, -⟩ := cutPiece_of_isLexeme munch.lexeme whole
    have parts := (cutPiece_append c cs).trans whole.symm
    have least := munch.longest (isLexeme_cutPiece shown) parts
    exact (List.append_inj parts (by omega)).1
  | stray unreadable =>
    obtain ⟨rfl, rfl⟩ := List.cons.inj whole
    rw [List.append_eq, List.nil_append, cutPiece_stray unreadable]
    rfl

theorem cutPiece_of_pieces {cs : List Char} {piece : Piece} {behind : List Piece}
    (split : pieces cs = piece :: behind) : ∃ c rest, cs = c :: rest ∧
      (cutPiece c rest).1 = piece ∧ pieces (cutPiece c rest).2 = behind := by
  cases cs with
  | nil => simp [pieces] at split
  | cons c rest =>
    rw [pieces] at split
    exact ⟨c, rest, rfl, List.cons.inj split⟩

theorem pieces_drop {cs : List Char} {before behind : List Piece}
    (split : pieces cs = before ++ behind) :
    pieces (cs.drop (before.flatMap Piece.source).length) = behind := by
  induction before generalizing cs with
  | nil => exact split
  | cons piece before ih =>
    obtain ⟨c, rest, rfl, rfl, rest_⟩ := cutPiece_of_pieces split
    rw [List.flatMap_cons, List.length_append, ← List.drop_drop]
    conv in c :: rest => rw [← cutPiece_append c rest]
    rw [List.drop_left]
    exact ih rest_

theorem drop_eq {cs : List Char} {before behind : List Piece} {piece : Piece}
    (split : pieces cs = before ++ piece :: behind) : ∃ c rest,
      cs.drop (before.flatMap Piece.source).length = c :: rest ∧ (cutPiece c rest).1 = piece := by
  obtain ⟨c, rest, same, first, -⟩ := cutPiece_of_pieces (pieces_drop split)
  exact ⟨c, rest, same, first⟩

theorem stands_of_pieces {cs : List Char} {before behind : List Piece}
    (split : pieces cs = before ++ behind) : Stands cs (before.flatMap Piece.source).length := by
  induction before using List.reverseRecOn generalizing behind with
  | nil => exact .start
  | append_singleton before piece ih =>
    rw [List.append_assoc] at split
    obtain ⟨c, rest, here, rfl⟩ := drop_eq split
    rw [List.flatMap_append, List.length_append, List.flatMap_singleton]
    exact (ih split).pass (here.trans (cutPiece_append c rest).symm) (passes_cutPiece c rest)

theorem pieces_of_stands {cs : List Char} {p : Nat} (stands : Stands cs p) :
    ∃ before behind, pieces cs = before ++ behind ∧ p = (before.flatMap Piece.source).length := by
  induction stands with
  | start => exact ⟨[], pieces cs, rfl, rfl⟩
  | @pass p text rest _ here passes ih =>
    obtain ⟨before, behind, split, rfl⟩ := ih
    have some_ : text ++ rest ≠ [] := by simp [passes.ne_nil]
    obtain ⟨c, more, whole⟩ := List.exists_cons_of_ne_nil some_
    have first := pieces_drop split
    rw [here, whole, pieces] at first
    refine ⟨before ++ [(cutPiece c more).1], pieces (cutPiece c more).2, ?_, ?_⟩
    · rw [split, ← first, List.append_assoc]
      rfl
    · simp [source_of_passes passes whole]

theorem place_append (position : Position) (xs ys : List Piece) : place position (xs ++ ys) =
    place position xs ++ place (position.after (xs.flatMap Piece.source)) ys := by
  induction xs generalizing position with
  | nil => rfl
  | cons piece xs ih =>
    rw [List.cons_append, place, ih, List.flatMap_cons, Position.after_append]
    rfl

theorem offset_after_start (text : List Char) :
    (Position.start.after text).offset = text.length := by
  rw [Position.offset_after]
  exact Nat.zero_add _

theorem Wins.antisymm {kind other : TokenKind} (wins : Wins kind other) (back : Wins other kind) :
    kind = other := by
  cases wins with
  | same => rfl
  | keyword => cases back

theorem munch_of_mem_tokens {source : String} {token : Token}
    (member : token ∈ (lex source).tokens.dropLast) :
    Stands source.toList token.position.offset ∧ ∃ text rest,
      source.toList.drop token.position.offset = text ++ rest ∧
      token.stop = token.position.offset + text.length ∧ Munch token.kind text rest := by
  obtain ⟨piece, before, behind, split, words, position, stop⟩ := mem_tokens member
  obtain ⟨c, rest, here, rfl⟩ := drop_eq split
  have shown : (cutPiece c rest).1.kind? = some token.kind := by simp [Piece.kind?, words]
  have offset : token.position.offset = (before.flatMap Piece.source).length := by
    rw [position, offset_after_start]
  constructor
  · rw [offset]
    exact stands_of_pieces split
  · refine ⟨_, _, ?_, stop, munch_cutPiece shown⟩
    rw [offset, here, cutPiece_append]

theorem exists_token_of_munch {source : String} {p : Nat} {kind : TokenKind}
    {text rest : List Char} (stands : Stands source.toList p)
    (here : source.toList.drop p = text ++ rest) (munch : Munch kind text rest) :
    ∃ token ∈ (lex source).tokens, token.kind = kind ∧ token.position.offset = p ∧
      token.stop = p + text.length := by
  obtain ⟨c, more, whole⟩ : ∃ c more, text ++ rest = c :: more :=
    List.exists_cons_of_ne_nil (by simp [munch.lexeme.ne_nil])
  have same := source_of_passes (.munch munch) whole
  obtain ⟨own, shown, -, wins⟩ := cutPiece_of_isLexeme munch.lexeme whole
  -- Both kinds win among the lexemes of this text, so they are the same.
  obtain rfl : own = kind := by
    have lexeme := isLexeme_cutPiece shown
    have parts := (cutPiece_append c more).trans whole.symm
    rw [same] at lexeme parts
    rw [List.append_cancel_left parts] at lexeme
    exact (wins same).antisymm (munch.wins lexeme)
  obtain ⟨before, behind, split, rfl⟩ := pieces_of_stands stands
  have first := pieces_drop split
  rw [here, whole, pieces] at first
  obtain ⟨lexeme, words, kind⟩ := Option.map_eq_some_iff.1 shown
  let position := Position.start.after (before.flatMap Piece.source)
  have shown : tokenAt? (position, (cutPiece c more).1) =
      some ⟨lexeme, position, position.offset + text.length⟩ := by
    rw [tokenAt?, words, same, Position.offset_after]
    rfl
  refine ⟨_, List.mem_append_left _ (List.mem_filterMap.2 ⟨_, ?_, shown⟩), kind,
    offset_after_start _, congrArg (· + text.length) (offset_after_start _)⟩
  rw [split, ← first, place_append]
  exact List.mem_append_right _ List.mem_cons_self

theorem unexpected_iff (source : String) (c : Char) (p : Nat) :
    (∃ error ∈ (lex source).errors,
      error.cause = .unexpectedCharacter c ∧ error.position.offset = p) ↔
    Stands source.toList p ∧ ∃ rest, source.toList.drop p = c :: rest ∧ Unreadable (c :: rest) := by
  constructor
  · rintro ⟨error, member, cause, rfl⟩
    obtain ⟨placed, inside, shown⟩ := List.mem_filterMap.1 member
    obtain ⟨before, behind, split, there⟩ := mem_place inside
    obtain ⟨own, fault, rfl⟩ := Option.map_eq_some_iff.1 shown
    obtain ⟨d, rest, here, first⟩ := drop_eq split
    rw [show own = .unexpectedCharacter c from cause] at fault
    obtain ⟨rfl, unreadable⟩ := unreadable_cutPiece (first.trans (Piece.eq_stray_of_fault? fault))
    dsimp only
    rw [there, offset_after_start]
    exact ⟨stands_of_pieces split, rest, here, unreadable⟩
  · rintro ⟨stands, rest, here, unreadable⟩
    obtain ⟨before, behind, split, rfl⟩ := pieces_of_stands stands
    have first := pieces_drop split
    rw [here, pieces, cutPiece_stray unreadable] at first
    refine ⟨⟨.unexpectedCharacter c, Position.start.after (before.flatMap Piece.source)⟩, ?_, rfl,
      offset_after_start _⟩
    refine List.mem_filterMap.2 ⟨(_, .stray c), ?_, rfl⟩
    rw [split, ← first, place_append]
    exact List.mem_append_right _ List.mem_cons_self

/-- Every token is the longest lexeme where it starts, with the kind that wins, and there is a token
wherever the scanner stands before a lexeme. A character is reported exactly where the scanner
stands before neither a blank nor a comment nor a lexeme. -/
theorem maximal_munch (source : String) :
    (∀ token ∈ (lex source).tokens, token.kind ≠ .endOfInput →
      Stands source.toList token.position.offset ∧ ∃ text rest,
        source.toList.drop token.position.offset = text ++ rest ∧
        token.stop = token.position.offset + text.length ∧ Munch token.kind text rest) ∧
    (∀ p kind text rest, Stands source.toList p → source.toList.drop p = text ++ rest →
      Munch kind text rest → ∃ token ∈ (lex source).tokens,
        token.kind = kind ∧ token.position.offset = p ∧ token.stop = p + text.length) ∧
    ∀ c p, (∃ error ∈ (lex source).errors,
        error.cause = .unexpectedCharacter c ∧ error.position.offset = p) ↔
      Stands source.toList p ∧ ∃ rest, source.toList.drop p = c :: rest ∧ Unreadable (c :: rest) := by
  refine ⟨fun token member proper => ?_, fun p kind text rest => exists_token_of_munch,
    unexpected_iff source⟩
  exact munch_of_mem_tokens (mem_dropLast_tokens member proper)

/-- An operator takes its letter from a name and the dashes from a number, and a character that
begins nothing is reported. -/
theorem maximal_munch_dashes :
    (∃ text rest, "o--5$".toList = text ++ rest ∧ text.length = 3 ∧
      Munch (.relation .aggregationReversed) text rest) ∧
    Stands "o--5$".toList 4 ∧ Unreadable ['$'] := by
  have lexed : lex "o--5$" = ⟨[⟨⟨.relation .aggregationReversed, "o--"⟩, ⟨0, 1, 1⟩, 3⟩,
      ⟨⟨.number, "5"⟩, ⟨3, 1, 4⟩, 4⟩, ⟨⟨.endOfInput, ""⟩, ⟨5, 1, 6⟩, 5⟩],
      [⟨.unexpectedCharacter '$', ⟨4, 1, 5⟩⟩]⟩ := by decide +kernel
  obtain ⟨tokens, -, unexpected⟩ := maximal_munch "o--5$"
  rw [lexed] at tokens unexpected
  constructor
  · obtain ⟨-, text, rest, whole, stop, munch⟩ := tokens _ List.mem_cons_self (by simp)
    exact ⟨text, rest, whole, by simpa using stop.symm, munch⟩
  · obtain ⟨stands, rest, here, unreadable⟩ :=
      (unexpected '$' 4).1 ⟨_, List.mem_cons_self, rfl, rfl⟩
    rw [← here] at unreadable
    exact ⟨stands, unreadable⟩

end ArchDiagram.Lexer
