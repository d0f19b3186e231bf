import ArchDiagram.Proofs.Joining
import ArchDiagram.Proofs.Shift

/-!
Sources joined by a line feed, as tokens. A line feed is to every lexeme what the end of the input
is, so nothing of the first source is read into the second one. Only a string or a comment that is
not closed would be; then the first source has an error that says so.
-/

namespace ArchDiagram

namespace Lexer

theorem closed_of_errors {source : String}
    (ends : ∀ error ∈ (lex source).errors,
      error.cause ≠ .unterminatedString ∧ error.cause ≠ .unterminatedComment) :
    ∀ piece ∈ pieces source.toList, piece.isOpen = false := by
  intro piece member
  by_contra runs
  rw [Bool.not_eq_false, Piece.isOpen_iff] at runs
  have causes : (lex source).errors.map (·.cause) =
      (pieces source.toList).filterMap Piece.fault? := by
    simp only [lex, List.map_filterMap, cause_errorAt?, filterMap_place]
  have told {cause : SyntaxError.Cause} (fault : piece.fault? = some cause) :
      ∃ error ∈ (lex source).errors, error.cause = cause := by
    rw [← List.mem_map, causes]
    exact List.mem_filterMap.2 ⟨piece, member, fault⟩
  rcases runs with comment | string
  · obtain ⟨error, member, cause⟩ := told comment
    exact (ends error member).2 cause
  · obtain ⟨error, member, cause⟩ := told string
    exact (ends error member).1 cause

theorem closed_of_quiet {source : String} (quiet : (lex source).errors = []) :
    ∀ piece ∈ pieces source.toList, piece.isOpen = false :=
  closed_of_errors (by simp [quiet])

section Joined

variable {first : String} (closed : ∀ piece ∈ pieces first.toList, piece.isOpen = false)
  (second : String)

include closed

theorem place_joined : place .start (pieces (first ++ "\n" ++ second).toList) =
    place .start (pieces first.toList) ++ (Position.start.after first.toList, .blank '\n') ::
      (place .start (pieces second.toList)).map (Shift.behind first).placed := by
  have whole : (first ++ "\n" ++ second).toList = first.toList ++ '\n' :: second.toList := by simp
  rw [whole, pieces_append_blank rfl second.toList closed (.inl rfl),
    place_append, source_pieces, ← Shift.place_position, ← Shift.position_behind, pieces,
    cutPiece_blank rfl]
  rfl

theorem filterMap_joined {Seen : Type} {view : Position × Piece → Option Seen} {move : Seen → Seen}
    (moved : ∀ placed, view ((Shift.behind first).placed placed) = (view placed).map move)
    (blank : ∀ position c, view (position, .blank c) = none) :
    (place .start (pieces (first ++ "\n" ++ second).toList)).filterMap view =
      (place .start (pieces first.toList)).filterMap view ++
        ((place .start (pieces second.toList)).filterMap view).map move := by
  rw [place_joined closed, List.filterMap_append, List.filterMap_cons_none (blank _ _),
    List.filterMap_map, List.map_filterMap]
  exact congrArg (_ ++ List.filterMap · _) (funext moved)

theorem tokens_joined : (lex (first ++ "\n" ++ second)).tokens.dropLast =
    (lex first).tokens.dropLast ++ (lex second).tokens.dropLast.map (Shift.behind first).token := by
  rw [dropLast_tokens, dropLast_tokens, dropLast_tokens]
  exact filterMap_joined closed second (Shift.tokenAt?_placed _) fun _ _ => rfl

theorem allErrors_joined : (lex (first ++ "\n" ++ second)).errors =
    (lex first).errors ++ (lex second).errors.map (Shift.behind first).error :=
  filterMap_joined closed second (Shift.errorAt?_placed _) fun _ _ => rfl

omit closed in
theorem endToken_joined : endToken (first ++ "\n" ++ second).toList =
    (Shift.behind first).token (endToken second.toList) := by
  have whole : (first ++ "\n" ++ second).toList = first.toList ++ '\n' :: second.toList := by simp
  have ends : Position.start.after (first.toList ++ '\n' :: second.toList) =
      (Shift.behind first).position (Position.start.after second.toList) := by
    rw [Shift.position_after, ← Shift.position_behind, Position.after_append]
    rfl
  rw [whole, endToken, ends]
  rfl

end Joined

theorem filter_tokens (source : String) :
    (lex source).tokens.filter (·.kind ≠ .endOfInput) = (lex source).tokens.dropLast := by
  have proper : ∀ token ∈ (lex source).tokens.dropLast, token.kind ≠ .endOfInput :=
    fun token member => kind_ne_end_of_mem_tokens member
  rw [tokens_eq, List.filter_append, List.filter_eq_self.2 (by simpa using proper)]
  simp [endToken]

theorem errors_joined {first : String} (quiet : (lex first).errors = []) (second : String) :
    (lex (first ++ "\n" ++ second)).errors =
      (lex second).errors.map (Shift.behind first).error := by
  rw [allErrors_joined (closed_of_quiet quiet), quiet, List.nil_append]

/-- Lexing goes on anew behind a line feed. If no string and no comment runs on to the end of the
first source, then the tokens of two sources joined by a line feed are those of the first one,
without its end, and those of the second one, moved behind the line feed: by its characters and
lines, but in the same columns. So are the errors. -/
theorem lex_joined {first : String}
    (ends : ∀ error ∈ (lex first).errors,
      error.cause ≠ .unterminatedString ∧ error.cause ≠ .unterminatedComment) (second : String) :
    (lex (first ++ "\n" ++ second)).tokens =
        (lex first).tokens.filter (·.kind ≠ .endOfInput) ++
          (lex second).tokens.map (Shift.behind first).token ∧
      (lex (first ++ "\n" ++ second)).errors =
        (lex first).errors ++ (lex second).errors.map (Shift.behind first).error := by
  have closed := closed_of_errors ends
  constructor
  · calc (lex (first ++ "\n" ++ second)).tokens
      _ = (lex (first ++ "\n" ++ second)).tokens.dropLast ++
            [endToken (first ++ "\n" ++ second).toList] := tokens_eq _
      _ = (lex first).tokens.dropLast ++ ((lex second).tokens.dropLast ++
            [endToken second.toList]).map (Shift.behind first).token := by
          rw [tokens_joined closed, endToken_joined, List.map_append, List.append_assoc]
          rfl
      _ = (lex first).tokens.filter (·.kind ≠ .endOfInput) ++
            (lex second).tokens.map (Shift.behind first).token := by
          rw [← tokens_eq, filter_tokens]
  · exact allErrors_joined closed second

/-- Stray characters are reported on both sides, and what is torn apart by the line feed is no
operator, number or color any more. -/
theorem lex_joined_torn :
    let whole := lex ("$ a - #ff00 1." ++ "\n" ++ "-> 00 $")
    whole.tokens.map (fun token => (token.kind, token.position, token.stop)) =
      [(.identifier, ⟨2, 1, 3⟩, 3), (.mark .minus, ⟨4, 1, 5⟩, 5), (.mark .hash, ⟨6, 1, 7⟩, 7),
       (.identifier, ⟨7, 1, 8⟩, 11), (.number, ⟨12, 1, 13⟩, 13), (.mark .dot, ⟨13, 1, 14⟩, 14),
       (.mark .minus, ⟨15, 2, 1⟩, 16), (.mark .greater, ⟨16, 2, 2⟩, 17), (.number, ⟨18, 2, 4⟩, 20),
       (.endOfInput, ⟨22, 2, 8⟩, 22)] ∧
    whole.errors.map (·.position) = [⟨0, 1, 1⟩, ⟨21, 2, 7⟩] := by
  intro whole
  have ends : ∀ error ∈ (lex "$ a - #ff00 1.").errors,
      error.cause ≠ .unterminatedString ∧ error.cause ≠ .unterminatedComment := by decide +kernel
  obtain ⟨tokens, errors⟩ := lex_joined ends "-> 00 $"
  constructor
  · rw [tokens]
    decide +kernel
  · rw [errors]
    decide +kernel

end Lexer

end ArchDiagram
